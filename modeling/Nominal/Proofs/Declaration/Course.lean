import Nominal.Proofs.Declaration.Steps

/-!
# The course of the building

`Follows` ties a program that builds something to a list of steps: the program stops at the first
step that violates a rule, or comes to its value if none does, and leaves in the string table the
names that were interned up to there. Programs that follow steps can be put together: what is done
one after the other follows the steps one after the other (`Follows.bind`, `Follows.mapM`).
-/

namespace Nominal

/-! ## Verdicts -/

/-- What something comes to: its violation, or its value if there is none. -/
def verdict {α : Type} (violation : Option HierarchyError) (value : α) :
    Except HierarchyError α :=
  match violation with
  | some err => .error err
  | none => .ok value

section Verdict

variable {α β : Type} {violation : Option HierarchyError} {value : α}

@[simp] theorem verdict_none (value : α) : verdict none value = .ok value := rfl

@[simp] theorem verdict_some (err : HierarchyError) (value : α) :
    verdict (some err) value = .error err := rfl

theorem verdict_eq_error_iff {err : HierarchyError} :
    verdict violation value = .error err ↔ violation = some err := by
  cases violation <;> simp

theorem exists_verdict_eq_ok_iff :
    (∃ a, verdict violation value = .ok a) ↔ violation = none := by
  cases violation <;> simp

theorem map_verdict (f : α → β) :
    (verdict violation value).map f = verdict violation (f value) := by
  cases violation <;> rfl

/-- What comes second counts only if nothing was violated before. -/
theorem verdict_bind {violation' : Option HierarchyError} {value' : β}
    {next : α → Except HierarchyError β}
    (h : violation = none → next value = verdict violation' value') :
    (verdict violation value >>= next) = verdict (violation.or violation') value' := by
  cases violation with
  | none => simpa [bind, Except.bind] using h rfl
  | some err => rfl

/-- A list is gone through up to the first violation. -/
theorem mapM_verdict (violationOf : α → Option HierarchyError) (valueOf : α → β) (l : List α) :
    (l.mapM fun a => verdict (violationOf a) (valueOf a)) =
      verdict (l.findSome? violationOf) (l.map valueOf) := by
  induction l with
  | nil => rfl
  | cons a l ih =>
      rw [List.mapM_cons, ih, List.findSome?_cons]
      cases violationOf a with
      | some err => rfl
      | none => cases l.findSome? violationOf <;> rfl

end Verdict

/-! ## Lists of steps -/

variable {declared : List String}

/-- The name that a step interns, if it does. -/
def BuildStep.interned? : BuildStep → Option String
  | .intern name => some name
  | .className .. | .supertype .. | .typeName .. | .methodName .. => none

/-- The names that are interned before the first violation in a list of steps. -/
def internedNames (declared : List String) (steps : List BuildStep) : List String :=
  (steps.takeWhile fun step => (step.violation declared).isNone).filterMap BuildStep.interned?

theorem firstViolation_append (steps steps' : List BuildStep) :
    firstViolation declared (steps ++ steps') =
      (firstViolation declared steps).or (firstViolation declared steps') :=
  List.findSome?_append

theorem firstViolation_cons (step : BuildStep) (steps : List BuildStep) :
    firstViolation declared (step :: steps) =
      (step.violation declared).or (firstViolation declared steps) := by
  cases h : step.violation declared <;> simp [firstViolation, h]

theorem firstViolation_singleton (step : BuildStep) :
    firstViolation declared [step] = step.violation declared := by
  cases h : step.violation declared <;> simp [firstViolation, h]

theorem firstViolation_cons_of_none {step : BuildStep} (h : step.violation declared = none)
    (steps : List BuildStep) :
    firstViolation declared (step :: steps) = firstViolation declared steps := by
  simp [firstViolation, h]

theorem internedNames_cons_of_none {step : BuildStep} (h : step.violation declared = none)
    (steps : List BuildStep) :
    internedNames declared (step :: steps) =
      step.interned?.toList ++ internedNames declared steps := by
  cases hname : step.interned? <;> simp [internedNames, h, hname]

theorem internedNames_cons_of_some {step : BuildStep} {err : HierarchyError}
    (h : step.violation declared = some err) (steps : List BuildStep) :
    internedNames declared (step :: steps) = [] := by
  simp [internedNames, h]

/-- Steps behind a violation intern nothing. -/
theorem internedNames_append (steps steps' : List BuildStep) :
    internedNames declared (steps ++ steps') =
      match firstViolation declared steps with
      | some _ => internedNames declared steps
      | none => internedNames declared steps ++ internedNames declared steps' := by
  induction steps with
  | nil => rfl
  | cons step steps ih =>
      rw [List.cons_append]
      cases hstep : step.violation declared with
      | some err =>
          rw [internedNames_cons_of_some hstep, internedNames_cons_of_some hstep]
          simp [firstViolation, hstep]
      | none =>
          rw [internedNames_cons_of_none hstep, internedNames_cons_of_none hstep,
            firstViolation_cons_of_none hstep, ih]
          cases firstViolation declared steps <;> simp

/-! ## Programs that follow steps -/

/-- `Follows declared table building steps value`: when the classes called `declared` are declared
and names are interned in the table numbered `table`, the program `building` goes through `steps`
up to the first violation, and comes to `value` if there is none. -/
def Follows (declared : List String) (table : Nat) {α : Type} (building : Building α)
    (steps : List BuildStep) (value : α) : Prop :=
  ∀ t : StringTable, t.id = table →
    building.run.run t =
      (verdict (firstViolation declared steps) value,
        (internedNames declared steps).foldl StringTable.insert t)

theorem run_bind {α β : Type} (building : Building α) (next : α → Building β) (t : StringTable) :
    (building >>= next).run.run t =
      match building.run.run t with
      | (.ok a, t') => (next a).run.run t'
      | (.error err, t') => (.error err, t') := by
  simp only [ExceptT.run_bind, StateT.run_bind]
  rcases building.run.run t with ⟨result, t'⟩
  cases result <;> rfl

/-- Interning does not change the number of a table. -/
theorem id_foldl_insert (names : List String) (t : StringTable) :
    (names.foldl StringTable.insert t).id = t.id := by
  induction names generalizing t with
  | nil => rfl
  | cons name names ih => rw [List.foldl_cons, ih, StringTable.id_insert]

namespace Follows

variable {table : Nat} {α β : Type}

theorem pure (value : α) : Follows declared table (Pure.pure value) [] value := by
  intro t _
  rfl

/-- Interning a name comes to its symbol. -/
theorem internName (name : String) :
    Follows declared table (Nominal.internName name) [.intern name] ⟨table, name⟩ := by
  intro t ht
  subst ht
  rfl

/-- What does not touch the string table follows steps that intern nothing. -/
theorem lift {steps : List BuildStep} {value : α} {result : Except HierarchyError α}
    (hintern : ∀ step ∈ steps, step.interned? = none)
    (h : result = verdict (firstViolation declared steps) value) :
    Follows declared table (liftM result) steps value := by
  intro t _
  have hnone : internedNames declared steps = [] := by
    rw [internedNames, List.filterMap_eq_nil_iff]
    intro step hstep
    exact hintern step (List.takeWhile_subset _ hstep)
  rw [hnone, h]
  rfl

/-- One program after the other follows the steps of one after those of the other. -/
theorem bind {building : Building α} {next : α → Building β} {steps steps' : List BuildStep}
    {value : α} {value' : β} (h : Follows declared table building steps value)
    (h' : firstViolation declared steps = none →
      Follows declared table (next value) steps' value') :
    Follows declared table (building >>= next) (steps ++ steps') value' := by
  intro t ht
  rw [run_bind, h t ht, firstViolation_append, internedNames_append]
  cases hfirst : firstViolation declared steps with
  | some err => rfl
  | none =>
      -- The second program runs on another table, but on one of the same number.
      have hid : ((internedNames declared steps).foldl StringTable.insert t).id = table := by
        rw [id_foldl_insert, ht]
      rw [List.foldl_append]
      exact h' hfirst _ hid

/-- Going through a list follows the steps of its members in order. -/
theorem mapM {f : α → Building β} {stepsOf : α → List BuildStep} {valueOf : α → β} {l : List α}
    (h : ∀ a ∈ l, Follows declared table (f a) (stepsOf a) (valueOf a)) :
    Follows declared table (l.mapM f) (l.flatMap stepsOf) (l.map valueOf) := by
  induction l with
  | nil => exact .pure []
  | cons a l ih =>
      have hhead := h a List.mem_cons_self
      have htail := ih fun b hb => h b (List.mem_cons_of_mem a hb)
      rw [List.mapM_cons, List.flatMap_cons, List.map_cons]
      refine hhead.bind fun _ => ?_
      rw [← List.append_nil (l.flatMap stepsOf)]
      exact htail.bind fun _ => .pure _

end Follows
end Nominal
