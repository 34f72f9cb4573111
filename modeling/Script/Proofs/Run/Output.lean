import Script.Proofs.Run.Uniform

/-!
# Limited output

No rule of the language looks at the output, and an error that the output reports is passed on
at once. So each evaluation has a text that it prints and an outcome that it comes to, and the
output decides only whether the evaluation gets there: if the output takes the text, the outcome
is reached, and if not, the evaluation fails with the refusal, right where the output refuses
(`Task.prints`). Texts that are written one after the other are taken as one text would be
(`Sink.writeEach_eq`). A run into a limited output is therefore the run into an unlimited one, cut
at the limit (`run_truncated`).
-/

namespace Script

/-! ## Writing in pieces

A limited output takes what fits, and of the first text that does not fit the beginning. It does not
count texts, only bytes. -/

/-- A prefix that ends within the first of two pieces. -/
theorem extract_append_of_le {a b : ByteArray} {n : Nat} (h : n ≤ a.size) :
    (a ++ b).extract 0 n = a.extract 0 n := by
  have hrest : n - a.size = 0 := by omega
  rw [ByteArray.extract_append, hrest]
  simp

/-- A prefix that goes beyond the first of two pieces. -/
theorem extract_append_of_ge {a b : ByteArray} {n : Nat} (h : a.size ≤ n) :
    (a ++ b).extract 0 n = a ++ b.extract 0 (n - a.size) := by
  have hmax : n = max n a.size := by omega
  have hfirst : a.extract 0 n = a := by
    rw [hmax]
    exact ByteArray.extract_zero_max_size
  rw [ByteArray.extract_append, hfirst, Nat.zero_sub]

namespace Sink

theorem write_empty (sink : Sink) : sink.write "" = (sink, none) := by
  obtain ⟨accepted, limit⟩ := sink
  cases limit with
  | none => simp [write]
  | some limit => simp [write]

theorem write_unlimited (accepted : ByteArray) (text : String) :
    (Sink.mk accepted none).write text = (⟨accepted ++ text.toUTF8, none⟩, none) := rfl

section

variable {accepted : ByteArray} {limit : SinkLimit} {text : String}

theorem write_fitting (h : text.toUTF8.size ≤ limit.capacity - accepted.size) :
    (Sink.mk accepted (some limit)).write text =
      (⟨accepted ++ text.toUTF8, some limit⟩, none) := by
  unfold write
  dsimp only
  rw [if_pos h]

/-- What does not fit is cut at the limit, and refused. -/
theorem write_overflowing (h : limit.capacity - accepted.size < text.toUTF8.size) :
    (Sink.mk accepted (some limit)).write text =
      (⟨accepted ++ text.toUTF8.extract 0 (limit.capacity - accepted.size), some limit⟩,
        some limit.refusal) := by
  unfold write
  dsimp only
  rw [if_neg (Nat.not_le.mpr h)]

end

/-- A text is taken, or refused, in two pieces as in one. -/
theorem write_append (sink : Sink) (a b : String) :
    sink.write (a ++ b) =
      match sink.write a with
      | (sink', none) => sink'.write b
      | refused => refused := by
  obtain ⟨accepted, limit⟩ := sink
  have hbytes : (a ++ b).toUTF8 = a.toUTF8 ++ b.toUTF8 := by
    simp [String.toByteArray_append]
  cases limit with
  | none => simp [write_unlimited, ByteArray.append_assoc]
  | some limit =>
    have hsize : (a ++ b).toUTF8.size = a.toUTF8.size + b.toUTF8.size := by
      rw [hbytes, ByteArray.size_append]
    have hroom : limit.capacity - (accepted ++ a.toUTF8).size =
        limit.capacity - accepted.size - a.toUTF8.size := by
      rw [ByteArray.size_append]
      omega
    rcases Nat.lt_or_ge (limit.capacity - accepted.size) a.toUTF8.size with hover | hfits
    -- The first piece is cut, and nothing of the second one is taken.
    · have hwhole : limit.capacity - accepted.size < (a ++ b).toUTF8.size := by omega
      rw [write_overflowing hwhole, write_overflowing hover, hbytes,
        extract_append_of_le (Nat.le_of_lt hover)]
    · rw [write_fitting hfits]
      dsimp only
      rcases Nat.lt_or_ge (limit.capacity - (accepted ++ a.toUTF8).size) b.toUTF8.size with
        hover | hrest
      · have hwhole : limit.capacity - accepted.size < (a ++ b).toUTF8.size := by omega
        -- The first piece is taken, the second one is cut, and the two have the size that was left.
        rw [write_overflowing hwhole, write_overflowing hover, hbytes, extract_append_of_ge hfits,
          hroom, ByteArray.append_assoc]
      · have hwhole : (a ++ b).toUTF8.size ≤ limit.capacity - accepted.size := by omega
        rw [write_fitting hwhole, write_fitting hrest, hbytes, ByteArray.append_assoc]

/-- Writes pieces of a text one after the other, up to the first that is not taken in full. -/
def writeEach (sink : Sink) : List String → Sink × Option String
  | [] => (sink, none)
  | piece :: rest =>
    match sink.write piece with
    | (sink', none) => sink'.writeEach rest
    | refused => refused

/-- It makes no difference in which pieces a text is written, empty ones included. -/
theorem writeEach_eq (sink : Sink) (pieces : List String) :
    sink.writeEach pieces = sink.write (String.join pieces) := by
  induction pieces generalizing sink with
  | nil => exact (write_empty sink).symm
  | cons piece rest ih =>
    rw [writeEach, String.join_cons, write_append]
    split
    · exact ih _
    · rfl

end Sink

/-! ## What an evaluation prints

The text and the outcome are told from the state alone, as if all were taken. What an actual output
does to the evaluation then follows from the text. -/

section

variable {α β : Type}

/-- The same outcome with this output in its state. -/
def withOutput (sink : Sink) : Outcome α → Outcome α
  | .ok a s => .ok a { s with output := sink }
  | .error interrupt s => .error interrupt { s with output := sink }

/-- From `s` on, but whatever the output is, the evaluation prints the text and comes to the
outcome, unless the output refuses the text. Then it fails with the refusal, and what has been
taken is what the output takes of the text. -/
structure Delivers (x : Eval α) (s : State) (text : String) (outcome : Outcome α) : Prop where
  taken : ∀ {sink sink' : Sink}, sink.write text = (sink', none) →
    x { s with output := sink } = withOutput sink' outcome
  refused : ∀ {sink sink' : Sink} {reason : String}, sink.write text = (sink', some reason) →
    ∃ s' : State,
      x { s with output := sink } = .error (.error (.output reason)) { s' with output := sink' }

/-- From each state on the evaluation delivers some text and some outcome. -/
def Prints (x : Eval α) : Prop := ∀ s, ∃ text outcome, Delivers x s text outcome

/-- The evaluation does the same whatever the output is, and leaves the output alone. -/
def Blind (x : Eval α) : Prop := ∀ s sink, x { s with output := sink } = withOutput sink (x s)

/-- An evaluation that is blind to the output prints the empty text. -/
theorem Blind.prints {x : Eval α} (h : Blind x) : Prints x := by
  intro s
  refine ⟨"", x s, ?taken, ?refused⟩
  case taken =>
    intro sink sink' hwrite
    rw [Sink.write_empty] at hwrite
    obtain ⟨rfl, -⟩ := Prod.mk.inj hwrite
    exact h s sink
  case refused =>
    intro sink sink' reason hwrite
    rw [Sink.write_empty] at hwrite
    cases (Prod.mk.inj hwrite).2

/-- A value that is there already prints nothing. -/
theorem prints_pure (a : α) : Prints (pure a : Eval α) := Blind.prints fun _ _ => rfl

/-- The only evaluation that prints a text by itself. -/
theorem prints_write (text : String) : Prints (Eval.write text) := by
  intro s
  refine ⟨text, .ok () s, ?taken, ?refused⟩
  case taken =>
    intro sink sink' hwrite
    simp only [Eval.write, hwrite]
    rfl
  case refused =>
    intro sink sink' reason hwrite
    refine ⟨s, ?_⟩
    simp only [Eval.write, hwrite]

/-- Two evaluations in a row print their texts in a row. If the output refuses the first text, the
second evaluation does not begin. -/
theorem Prints.bind {x : Eval α} {k : α → Eval β} (hx : Prints x)
    (hk : ∀ s a s', x s = .ok a s' → Prints (k a)) : Prints (x >>= k) := by
  intro s
  obtain ⟨text, outcome, hfirst⟩ := hx s
  cases outcome with
  | error interrupt s₁ =>
    refine ⟨text, .error interrupt s₁, ?taken, ?refused⟩
    case taken =>
      intro sink sink' hwrite
      exact Eval.bind_of_error (hfirst.taken hwrite)
    case refused =>
      intro sink sink' reason hwrite
      obtain ⟨s', hrun⟩ := hfirst.refused hwrite
      exact ⟨s', Eval.bind_of_error hrun⟩
  | ok a s₁ =>
    -- The second evaluation begins in a state that the first one reaches when all its text is
    -- taken.
    have hreached := hfirst.taken (Sink.write_unlimited .empty text)
    obtain ⟨rest, outcome, hsecond⟩ := hk _ _ _ hreached s₁
    refine ⟨text ++ rest, outcome, ?taken, ?refused⟩
    case taken =>
      intro sink sink' hwrite
      rw [Sink.write_append] at hwrite
      cases htext : sink.write text with
      | mk between refusal =>
        rw [htext] at hwrite
        cases refusal with
        | none =>
          rw [Eval.bind_of_ok (hfirst.taken htext)]
          exact hsecond.taken hwrite
        | some reason => cases (Prod.mk.inj hwrite).2
    case refused =>
      intro sink sink' reason hwrite
      rw [Sink.write_append] at hwrite
      cases htext : sink.write text with
      | mk between refusal =>
        rw [htext] at hwrite
        cases refusal with
        | none =>
          rw [Eval.bind_of_ok (hfirst.taken htext)]
          exact hsecond.refused hwrite
        | some reason =>
          obtain ⟨rfl, hreason⟩ := Prod.mk.inj hwrite
          obtain rfl := Option.some.inj hreason
          obtain ⟨s', hrun⟩ := hfirst.refused htext
          exact ⟨s', Eval.bind_of_error hrun⟩

/-! ## Actions

The actions are gone through one by one; all but one of them never mention the output. -/

/-- Reading the store, and failing if there is nothing to read. -/
theorem blind_readOrFail (f : Store → Except RuntimeError α) : Blind (Eval.readOrFail f) := by
  intro s sink
  unfold Eval.readOrFail
  dsimp only
  cases f s.store <;> rfl

theorem blind_update (f : Store → Except RuntimeError Store) : Blind (Eval.update f) := by
  intro s sink
  unfold Eval.update
  dsimp only
  cases f s.store <;> rfl

/-- Applying an operator to a value, or reporting that it does not apply. -/
theorem blind_applyUnary (operator : Token) (operand : Value) :
    Blind (applyUnary operator operand) := by
  intro s sink
  unfold applyUnary
  generalize operator.kind = kind
  split
  · cases operand <;> rfl
  · rfl
  · rfl

/-- An operator between two values is blind for the output as well. -/
theorem blind_applyBinary (left : Value) (operator : Token) (right : Value) :
    Blind (applyBinary left operator right) := by
  intro s sink
  unfold applyBinary
  generalize operator.kind = kind
  split
  · rfl
  · rfl
  · cases numericOperator? kind with
    | none => rfl
    | some compute =>
      dsimp only
      split <;> rfl

/-- Only one action looks at the output, the one that writes to it. All others give the same result
for every sink and hand the sink on as it is, so that they print nothing. -/
theorem Task.Acts.prints {task : Task} {action : Eval α} (h : task.Acts action) :
    Prints action := by
  cases h with
  | write text => exact prints_write text
  | lookup scope name => exact (blind_readOrFail _).prints
  | receiver scope keyword => exact (blind_readOrFail _).prints
  | superclass scope => exact (blind_readOrFail _).prints
  | define scope name value => exact (blind_update _).prints
  | assign scope name value => exact (blind_update _).prints
  | setProperty scope object name value target result => exact (blind_update _).prints
  | unary scope operator operand value => exact (blind_applyUnary operator value).prints
  | binary scope left right hkind leftValue rightValue =>
    exact (blind_applyBinary leftValue _ rightValue).prints
  | checkArity expected actual =>
    refine Blind.prints fun s sink => ?_
    unfold Eval.checkArity
    split <;> rfl
  | native function arguments =>
    refine Blind.prints fun s sink => ?_
    unfold Eval.native
    split <;> rfl
  | _ => exact Blind.prints fun _ _ => rfl

end

/-! ## Runs

Texts are joined along a plan, then by induction on the fuel, then along the statements of a
program. -/

/-- A plan prints what its actions and the tasks that it calls print, in their order. -/
theorem Plan.prints {α : Type} {run : (task : Task) → Eval task.Result} {task : Task}
    {T : Task → Prop} {plan : Plan α} (hplan : plan.MadeOf (fun _ => True) task.Acts T)
    (hrun : ∀ other, Prints (run other)) : Prints (plan.eval run) := by
  induction plan with
  | done a => exact prints_pure a
  | step event action next ih =>
    exact hplan.1.prints.bind fun s b s' haction => ih b (hplan.2 s b s' trivial haction)
  | sub other next ih => exact (hrun other).bind fun _ b _ _ => ih b (hplan.2 b)

/-- So every task prints some text and comes to some outcome. -/
theorem Task.prints (fuel : Nat) (task : Task) : Prints (task.run fuel) := by
  induction fuel generalizing task with
  | zero =>
    refine Blind.prints fun s sink => ?_
    rw [run_zero, run_zero]
    rfl
  | succ fuel ih =>
    rw [run_succ]
    exact Plan.prints (task.madeOf _) ih

/-- A statement at top level may also report a `return`, which prints nothing. -/
theorem runStatement_prints (fuel : Nat) (scope : ScopeId) (stmt : Stmt) :
    Prints (Eval.runStatement fuel scope stmt) := by
  refine ((Task.execute scope stmt).prints fuel).bind fun s completion s' _ => ?_
  cases completion with
  | normal value => exact prints_pure value
  | returned value => exact Blind.prints fun _ _ => rfl

/-- Programs print one statement after the other, by induction on the statements. The value of the
last one is left open, since `foldlM` carries it along. -/
theorem run_prints (fuel : Nat) (scope : ScopeId) (statements : List Stmt) :
    Prints (Eval.run fuel scope statements) := by
  unfold Eval.run
  generalize Value.nil = last
  induction statements generalizing last with
  | nil => exact prints_pure last
  | cons stmt rest ih =>
    rw [List.foldlM_cons]
    exact (runStatement_prints fuel scope stmt).bind fun _ value _ _ => ih value

/-- How a run into an output of limited capacity compares with the same run into an unlimited
output. -/
structure Truncated (capacity : Nat) (refusal : String) (free bounded : Outcome Value) :
    Prop where
  /-- The limited output takes what has been printed up to the limit. -/
  accepted : (finalState bounded).output.accepted =
    (finalState free).output.accepted.extract 0 capacity
  size : (finalState bounded).output.accepted.size =
    min capacity (finalState free).output.accepted.size
  /-- If this is all, the run ends in the same way, and in the same state otherwise. -/
  fitting : (finalState free).output.accepted.size ≤ capacity →
    bounded = withOutput ⟨(finalState free).output.accepted, some ⟨capacity, refusal⟩⟩ free
  /-- If not, it fails with the refusal. -/
  overflowing : capacity < (finalState free).output.accepted.size →
    ∃ s, bounded = .error (.error (.output refusal)) s

/-- Both runs print the same text. The limited output takes all of it, or cuts it. -/
theorem Delivers.truncated {x : Eval Value} {s : State} {text : String} {outcome : Outcome Value}
    (h : Delivers x s text outcome) (capacity : Nat) (refusal : String) :
    Truncated capacity refusal (x { s with output := .unlimited })
      (x { s with output := .limited capacity refusal }) := by
  have hfree : x { s with output := .unlimited } = withOutput ⟨text.toUTF8, none⟩ outcome := by
    have hwrite : Sink.unlimited.write text = (⟨text.toUTF8, none⟩, none) := by
      simp [Sink.unlimited, Sink.write_unlimited]
    exact h.taken hwrite
  have houtput : ∀ sink, (finalState (withOutput sink outcome)).output = sink := by
    intro sink
    cases outcome <;> rfl
  rw [hfree]
  have hempty : ByteArray.empty.size = 0 := rfl
  rcases Nat.lt_or_ge capacity text.toUTF8.size with hover | hfits
  -- The text is cut.
  · have hwrite : (Sink.limited capacity refusal).write text =
        (⟨text.toUTF8.extract 0 capacity, some ⟨capacity, refusal⟩⟩, some refusal) := by
      unfold Sink.limited
      rw [Sink.write_overflowing (by simpa using hover)]
      simp
    obtain ⟨s', hrun⟩ := h.refused hwrite
    refine ⟨?accepted, ?size, ?fitting, ?overflowing⟩
    case accepted => rw [hrun, houtput, finalState_error]
    case size =>
      rw [hrun, houtput, finalState_error]
      dsimp only
      rw [ByteArray.size_extract]
      omega
    case fitting =>
      intro hle
      rw [houtput] at hle
      dsimp only at hle
      omega
    case overflowing => exact fun _ => ⟨_, hrun⟩
  · have hwrite : (Sink.limited capacity refusal).write text =
        (⟨text.toUTF8, some ⟨capacity, refusal⟩⟩, none) := by
      unfold Sink.limited
      rw [Sink.write_fitting (by simpa using hfits)]
      simp
    have hrun := h.taken hwrite
    have hall : text.toUTF8.extract 0 capacity = text.toUTF8 := by
      have hmax : capacity = max capacity text.toUTF8.size := by omega
      rw [hmax, ByteArray.extract_zero_max_size]
    refine ⟨?accepted, ?size, ?fitting, ?overflowing⟩
    case accepted => rw [hrun, houtput, houtput, hall]
    case size =>
      rw [hrun, houtput, houtput]
      dsimp only
      omega
    case fitting =>
      intro _
      rw [hrun, houtput]
      cases outcome <;> rfl
    case overflowing =>
      intro hlt
      rw [houtput] at hlt
      dsimp only at hlt
      omega

/-- A limited output only cuts off what is printed. A program has one text to print and one outcome
to come to, both told by the state alone (`run_prints`), and the two outputs take as much of the
text as they can. -/
theorem run_truncated (fuel : Nat) (scope : ScopeId) (program : List Stmt) (store : Store)
    (clock : Clock) (capacity : Nat) (refusal : String) :
    Truncated capacity refusal (Eval.run fuel scope program ⟨store, .unlimited, clock⟩)
      (Eval.run fuel scope program ⟨store, .limited capacity refusal, clock⟩) := by
  obtain ⟨text, outcome, h⟩ := run_prints fuel scope program ⟨store, .unlimited, clock⟩
  exact h.truncated capacity refusal

end Script
