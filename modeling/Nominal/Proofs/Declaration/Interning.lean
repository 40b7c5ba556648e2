import Mathlib.Data.List.Dedup
import Mathlib.Data.List.TakeWhile
import Nominal.Proofs.Declaration.Acceptance

/-!
# What building leaves in the string table

A building interns a name on its way to a rule that may be violated: the name of a class before the
class is added, the name of a method before its signature is resolved. So what is in the table
afterwards tells how far the building came:

* `HierarchyDecl.StopsAt` — where a declaration is refused, as a position in it;
* `HierarchyDecl.namesUpTo` — the names that stand in front of that position, or at it;
* `StringTable.Gains` — a table holds what another one holds, and some names besides.

The steps of a declaration fall into sections, those of one class name, of one class or of one
method. Where the first violation is in one of them, the sections before it have interned all of
their names (`internedNames_flatMap`).

Main statement: `build_gains_namesUpTo`.
-/

namespace Nominal

/-! ## Sections of steps -/

section Sections

variable {declared : List String} {steps : List BuildStep} {err : HierarchyError}

/-- If nothing is violated, every name is interned. -/
theorem internedNames_of_none (h : firstViolation declared steps = none) :
    internedNames declared steps = steps.filterMap BuildStep.interned? := by
  have hall : steps.takeWhile (fun step => (step.violation declared).isNone) = steps := by
    rw [List.takeWhile_eq_self_iff]
    intro step hstep
    rw [firstViolation_eq_none_iff.1 h step hstep, Option.isNone_none]
  rw [internedNames, hall]

theorem internedNames_append_of_none (h : firstViolation declared steps = none)
    (steps' : List BuildStep) :
    internedNames declared (steps ++ steps') =
      steps.filterMap BuildStep.interned? ++ internedNames declared steps' := by
  rw [internedNames_append, h, internedNames_of_none h]

theorem internedNames_append_of_some (h : firstViolation declared steps = some err)
    (steps' : List BuildStep) :
    internedNames declared (steps ++ steps') = internedNames declared steps := by
  rw [internedNames_append, h]

/-- Steps that intern nothing leave nothing, wherever they stop. -/
theorem internedNames_eq_nil (h : ∀ step ∈ steps, step.interned? = none) :
    internedNames declared steps = [] := by
  rw [internedNames, List.filterMap_eq_nil_iff]
  intro step hstep
  exact h step (List.takeWhile_subset _ hstep)

theorem firstViolation_append_eq_some_iff {steps' : List BuildStep} :
    firstViolation declared (steps ++ steps') = some err ↔
      firstViolation declared steps = some err ∨
        firstViolation declared steps = none ∧ firstViolation declared steps' = some err := by
  rw [firstViolation_append, Option.or_eq_some_iff]

section FlatMap

variable {α : Type} {l : List α} {stepsOf : α → List BuildStep}

theorem firstViolation_flatMap_eq_none_iff :
    firstViolation declared (l.flatMap stepsOf) = none ↔
      ∀ a ∈ l, firstViolation declared (stepsOf a) = none := by
  simp only [firstViolation_eq_none_iff, List.forall_mem_flatMap]

/-- The first violation is in one section, and there is none in those before it. -/
theorem firstViolation_flatMap_eq_some_iff :
    firstViolation declared (l.flatMap stepsOf) = some err ↔
      ∃ k a, l[k]? = some a ∧ (∀ b ∈ l.take k, firstViolation declared (stepsOf b) = none) ∧
        firstViolation declared (stepsOf a) = some err := by
  induction l with
  | nil => simp [firstViolation]
  | cons head l ih =>
      rw [List.flatMap_cons, firstViolation_append_eq_some_iff, ih]
      constructor
      · rintro (hhead | ⟨hhead, k, a, hk, hbefore, ha⟩)
        · exact ⟨0, head, rfl, by simp, hhead⟩
        · exact ⟨k + 1, a, hk, List.forall_mem_cons.2 ⟨hhead, hbefore⟩, ha⟩
      · rintro ⟨k, a, hk, hbefore, ha⟩
        cases k with
        | zero =>
            obtain rfl : head = a := Option.some.inj hk
            exact .inl ha
        | succ k =>
            rw [List.take_succ_cons, List.forall_mem_cons] at hbefore
            exact .inr ⟨hbefore.1, k, a, hk, hbefore.2, ha⟩

/-- The sections before the first violation have interned all of their names, and those behind it
none. -/
theorem internedNames_flatMap {k : Nat} {a : α} (hk : l[k]? = some a)
    (hbefore : ∀ b ∈ l.take k, firstViolation declared (stepsOf b) = none)
    (ha : firstViolation declared (stepsOf a) = some err) :
    internedNames declared (l.flatMap stepsOf) =
      (l.take k).flatMap (fun b => (stepsOf b).filterMap BuildStep.interned?) ++
        internedNames declared (stepsOf a) := by
  have hsplit : l = l.take k ++ a :: l.drop (k + 1) := by
    rw [← List.singleton_append, ← Option.toList_some, ← hk, ← List.drop_eq_getElem?_toList_append,
      List.take_append_drop]
  have hnone := firstViolation_flatMap_eq_none_iff.2 hbefore
  conv_lhs => rw [hsplit]
  rw [List.flatMap_append, List.flatMap_cons, internedNames_append_of_none hnone,
    internedNames_append_of_some ha, List.filterMap_flatMap]

end FlatMap
end Sections

/-! ## One class -/

/-- A method interns its own name. -/
theorem MethodDecl.filterMap_interned?_steps (m : MethodDecl) :
    m.steps.filterMap BuildStep.interned? = [m.name] := by
  simp [MethodDecl.steps, BuildStep.interned?, List.filterMap_map, Function.comp_def]

/-- It does so before anything else, so also if its signature is refused. -/
theorem MethodDecl.internedNames_steps (declared : List String) (m : MethodDecl) :
    internedNames declared m.steps = [m.name] := by
  have hrest : ∀ step ∈ m.params.map .typeName ++ [.typeName m.returns],
      BuildStep.interned? step = none := by
    rw [List.forall_mem_append, List.forall_mem_map, List.forall_mem_singleton]
    exact ⟨fun _ _ => rfl, rfl⟩
  rw [MethodDecl.steps, internedNames_cons_of_none violation_intern, internedNames_eq_nil hrest]
  rfl

/-- The part of a class that is refused. -/
inductive ClassStop where
  /-- The supertypes and the constructor. -/
  | header
  /-- The signature of the method at `j`. -/
  | signature (j : Nat)
  /-- The repetition of a method, which is noticed behind all signatures. -/
  | repetition
  deriving DecidableEq, Repr

namespace ClassDecl

/-- The steps that resolve the supertypes and the constructor of a class. -/
def headerSteps (c : ClassDecl) : List BuildStep :=
  c.supertypes.map (.supertype c.name) ++ (c.declaredConstructor.getD []).map .typeName

/-- `c.StopsAt declared stop err`: building the class `c` stops in the part `stop`, as `err` is
violated there and no rule is violated before. -/
inductive StopsAt (declared : List String) (c : ClassDecl) : ClassStop → HierarchyError → Prop where
  | header {err : HierarchyError} :
      firstViolation declared c.headerSteps = some err → StopsAt declared c .header err
  | signature {j : Nat} {m : MethodDecl} {err : HierarchyError} :
      firstViolation declared c.headerSteps = none → c.methods[j]? = some m →
      (∀ earlier ∈ c.methods.take j, firstViolation declared earlier.steps = none) →
      firstViolation declared m.steps = some err →
      StopsAt declared c (.signature j) err
  | repetition {err : HierarchyError} :
      firstViolation declared c.resolutionSteps = none →
      firstViolation declared (methodNameSteps c.name [] c.methodNames) = some err →
      StopsAt declared c .repetition err

/-- The names of the methods whose signature is begun before a class is refused. -/
def namesUpTo (c : ClassDecl) : ClassStop → List String
  | .header => []
  | .signature j => c.methodNames.take (j + 1)
  | .repetition => c.methodNames

variable {declared : List String} {c : ClassDecl}

theorem resolutionSteps_eq (c : ClassDecl) :
    c.resolutionSteps = c.headerSteps ++ c.methods.flatMap MethodDecl.steps := rfl

theorem interned?_eq_none_of_mem_headerSteps (c : ClassDecl) :
    ∀ step ∈ c.headerSteps, step.interned? = none := by
  rw [headerSteps, List.forall_mem_append, List.forall_mem_map, List.forall_mem_map]
  exact ⟨fun _ _ => rfl, fun _ _ => rfl⟩

/-- Supertypes and constructors intern nothing, and every method its own name. -/
theorem filterMap_interned?_resolutionSteps (c : ClassDecl) :
    c.resolutionSteps.filterMap BuildStep.interned? = c.methodNames := by
  rw [resolutionSteps_eq, List.filterMap_append,
    List.filterMap_eq_nil_iff.2 c.interned?_eq_none_of_mem_headerSteps, List.nil_append,
    List.filterMap_flatMap, methodNames, List.map_eq_flatMap]
  simp only [MethodDecl.filterMap_interned?_steps]

theorem filterMap_interned?_steps (c : ClassDecl) :
    c.steps.filterMap BuildStep.interned? = c.methodNames := by
  rw [ClassDecl.steps, List.filterMap_append, filterMap_interned?_resolutionSteps,
    List.filterMap_eq_nil_iff.2 fun _ => interned?_eq_none_of_mem_methodNameSteps, List.append_nil]

theorem firstViolation_steps_eq_some_iff {err : HierarchyError} :
    firstViolation declared c.steps = some err ↔ ∃ stop, c.StopsAt declared stop err := by
  rw [ClassDecl.steps, firstViolation_append_eq_some_iff, resolutionSteps_eq,
    firstViolation_append_eq_some_iff, firstViolation_flatMap_eq_some_iff, ← resolutionSteps_eq]
  constructor
  · rintro ((hheader | ⟨hheader, j, m, hj, hbefore, hm⟩) | ⟨hresolved, hnames⟩)
    · exact ⟨_, .header hheader⟩
    · exact ⟨_, .signature hheader hj hbefore hm⟩
    · exact ⟨_, .repetition hresolved hnames⟩
  · rintro ⟨stop, hstop⟩
    cases hstop with
    | header hheader => exact .inl (.inl hheader)
    | signature hheader hj hbefore hm => exact .inl (.inr ⟨hheader, _, _, hj, hbefore, hm⟩)
    | repetition hresolved hnames => exact .inr ⟨hresolved, hnames⟩

theorem mem_methodNames_of_mem_namesUpTo (c : ClassDecl) {stop : ClassStop} {text : String}
    (h : text ∈ c.namesUpTo stop) : text ∈ c.methodNames := by
  cases stop with
  | header => cases h
  | signature j => exact List.mem_of_mem_take h
  | repetition => exact h

/-- What a class that is refused has interned. -/
theorem StopsAt.internedNames_steps {stop : ClassStop} {err : HierarchyError}
    (h : c.StopsAt declared stop err) : internedNames declared c.steps = c.namesUpTo stop := by
  cases h with
  | header hheader =>
      have hresolution : firstViolation declared c.resolutionSteps = some err := by
        rw [resolutionSteps_eq, firstViolation_append, hheader, Option.some_or]
      rw [ClassDecl.steps, internedNames_append_of_some hresolution, resolutionSteps_eq,
        internedNames_append_of_some hheader,
        internedNames_eq_nil c.interned?_eq_none_of_mem_headerSteps, namesUpTo]
  | @signature j m _ hheader hj hbefore hm =>
      have hmethods : firstViolation declared (c.methods.flatMap MethodDecl.steps) = some err :=
        firstViolation_flatMap_eq_some_iff.2 ⟨j, m, hj, hbefore, hm⟩
      have hresolution : firstViolation declared c.resolutionSteps = some err := by
        rw [resolutionSteps_eq, firstViolation_append, hheader, Option.none_or, hmethods]
      -- The names before the method, and its own.
      have hnames : c.methodNames.take (j + 1) = (c.methods.take j).map (·.name) ++ [m.name] := by
        rw [methodNames, ← List.map_take, List.take_add_one, hj, List.map_append]
        rfl
      rw [ClassDecl.steps, internedNames_append_of_some hresolution, resolutionSteps_eq,
        internedNames_append_of_none hheader,
        List.filterMap_eq_nil_iff.2 c.interned?_eq_none_of_mem_headerSteps, List.nil_append,
        internedNames_flatMap hj hbefore hm, MethodDecl.internedNames_steps, namesUpTo, hnames,
        List.map_eq_flatMap]
      simp only [MethodDecl.filterMap_interned?_steps]
  | repetition hresolved hnames =>
      rw [ClassDecl.steps, internedNames_append_of_none hresolved,
        filterMap_interned?_resolutionSteps,
        internedNames_eq_nil fun _ => interned?_eq_none_of_mem_methodNameSteps, List.append_nil,
        namesUpTo]

end ClassDecl

/-! ## The class names -/

theorem getElem?_withEarlier (earlier names : List String) (k : Nat) :
    (withEarlier earlier names)[k]? =
      names[k]?.map fun name => (earlier ++ names.take k, name) := by
  induction names generalizing earlier k with
  | nil => simp [withEarlier]
  | cons name names ih => cases k <;> simp [withEarlier, ih]

theorem take_withEarlier (earlier names : List String) (k : Nat) :
    (withEarlier earlier names).take k = withEarlier earlier (names.take k) := by
  induction names generalizing earlier k with
  | nil => simp [withEarlier]
  | cons name names ih => cases k <;> simp [withEarlier, ih]

namespace HierarchyDecl

/-- In the first pass every class name is interned once. -/
theorem filterMap_interned?_classNameSteps (earlier names : List String) :
    (classNameSteps earlier names).filterMap BuildStep.interned? = names := by
  rw [classNameSteps, List.filterMap_flatMap]
  calc
    (withEarlier earlier names).flatMap
        (fun p => [BuildStep.intern p.2, .className p.1 p.2].filterMap BuildStep.interned?)
      = (withEarlier earlier names).flatMap fun p => [p.2] := rfl
    _ = names := by rw [← List.map_eq_flatMap, map_snd_withEarlier]

end HierarchyDecl

/-! ## The declaration -/

/-- The place in a declaration that is refused. -/
inductive BuildStop where
  /-- The name of the class at `k`, in the first pass. -/
  | className (k : Nat)
  /-- A part of the class at `k`, in the second pass. -/
  | inClass (k : Nat) (stop : ClassStop)
  deriving DecidableEq, Repr

namespace HierarchyDecl

/-- The names of all methods, class by class. -/
def methodNames (d : HierarchyDecl) : List String := d.classes.flatMap ClassDecl.methodNames

/-- `d.StopsAt stop err`: building `d` stops at the place `stop`, as `err` is violated there and no
rule is violated before. -/
inductive StopsAt (d : HierarchyDecl) : BuildStop → HierarchyError → Prop where
  | className {k : Nat} {name : String} {err : HierarchyError} :
      d.classNames[k]? = some name →
      firstViolation d.classNames (classNameSteps [] (d.classNames.take k)) = none →
      (BuildStep.className (d.classNames.take k) name).violation d.classNames = some err →
      StopsAt d (.className k) err
  | inClass {k : Nat} {c : ClassDecl} {stop : ClassStop} {err : HierarchyError} :
      firstViolation d.classNames (classNameSteps [] d.classNames) = none →
      d.classes[k]? = some c →
      (∀ earlier ∈ d.classes.take k, firstViolation d.classNames earlier.steps = none) →
      c.StopsAt d.classNames stop err →
      StopsAt d (.inClass k stop) err

/-- The names that are reached before a declaration is refused: in the first pass those of the
classes up to the one that is refused; in the second pass those of all classes, those of the methods
of the classes before, and of the class itself those of the methods whose signature was begun. -/
def namesUpTo (d : HierarchyDecl) : BuildStop → List String
  | .className k => d.classNames.take (k + 1)
  | .inClass k stop =>
    d.classNames ++ ((d.classes.take k).flatMap ClassDecl.methodNames ++
      (d.classes[k]?.map (·.namesUpTo stop)).getD [])

variable {d : HierarchyDecl} {err : HierarchyError}

/-- The steps of a class name, with the names before it. -/
theorem stopsAt_className_iff {k : Nat} :
    d.StopsAt (.className k) err ↔
      ∃ p, (withEarlier [] d.classNames)[k]? = some p ∧
        (∀ q ∈ (withEarlier [] d.classNames).take k,
          firstViolation d.classNames [.intern q.2, .className q.1 q.2] = none) ∧
        firstViolation d.classNames [.intern p.2, .className p.1 p.2] = some err := by
  constructor
  · intro h
    cases h with
    | @className _ name _ hname hbefore hstep =>
        refine ⟨(d.classNames.take k, name), ?_, ?_, ?_⟩
        · rw [getElem?_withEarlier, hname]
          rfl
        · rw [take_withEarlier]
          exact firstViolation_flatMap_eq_none_iff.1 hbefore
        · rw [firstViolation_cons_of_none violation_intern, firstViolation_singleton]
          exact hstep
  · rintro ⟨p, hp, hbefore, hstep⟩
    rw [getElem?_withEarlier, Option.map_eq_some_iff] at hp
    obtain ⟨name, hname, rfl⟩ := hp
    rw [take_withEarlier] at hbefore
    rw [firstViolation_cons_of_none violation_intern, firstViolation_singleton] at hstep
    exact .className hname (firstViolation_flatMap_eq_none_iff.2 hbefore) hstep

/-- The first pass is refused at one of the class names. -/
theorem firstViolation_classNameSteps_eq_some_iff :
    firstViolation d.classNames (classNameSteps [] d.classNames) = some err ↔
      ∃ k, d.StopsAt (.className k) err := by
  simp only [stopsAt_className_iff]
  exact firstViolation_flatMap_eq_some_iff

/-- A declaration is refused exactly if its building stops somewhere. -/
theorem firstViolation_steps_eq_some_iff :
    firstViolation d.classNames d.steps = some err ↔ ∃ stop, d.StopsAt stop err := by
  rw [HierarchyDecl.steps, firstViolation_append_eq_some_iff,
    firstViolation_classNameSteps_eq_some_iff, firstViolation_flatMap_eq_some_iff]
  simp only [ClassDecl.firstViolation_steps_eq_some_iff]
  constructor
  · rintro (⟨k, hstop⟩ | ⟨hnames, k, c, hk, hbefore, stop, hc⟩)
    · exact ⟨_, hstop⟩
    · exact ⟨_, .inClass hnames hk hbefore hc⟩
  · rintro ⟨stop, hstop⟩
    cases hstop with
    | className hk hbefore hstep => exact .inl ⟨_, .className hk hbefore hstep⟩
    | inClass hnames hk hbefore hc => exact .inr ⟨hnames, _, _, hk, hbefore, _, hc⟩

/-- What a declaration that is refused has interned. -/
theorem StopsAt.internedNames_steps {stop : BuildStop} (h : d.StopsAt stop err) :
    internedNames d.classNames d.steps = d.namesUpTo stop := by
  cases h with
  | @className k name _ hname hbefore hstep =>
      have hstop : d.StopsAt (.className k) err := .className hname hbefore hstep
      have hfirst := firstViolation_classNameSteps_eq_some_iff.2 ⟨k, hstop⟩
      obtain ⟨p, hp, hbefore', hp'⟩ := stopsAt_className_iff.1 hstop
      have hnames : internedNames d.classNames [.intern p.2, .className p.1 p.2] = [p.2] := by
        rw [firstViolation_cons_of_none violation_intern, firstViolation_singleton] at hp'
        rw [internedNames_cons_of_none violation_intern, internedNames_cons_of_some hp']
        rfl
      calc
        internedNames d.classNames d.steps
          = internedNames d.classNames (classNameSteps [] d.classNames) := by
            rw [HierarchyDecl.steps, internedNames_append_of_some hfirst]
        _ = ((withEarlier [] d.classNames).take k).flatMap (fun q => [q.2]) ++ [p.2] := by
            rw [← hnames]
            exact internedNames_flatMap hp hbefore' hp'
        _ = ((withEarlier [] d.classNames).take (k + 1)).map (·.2) := by
            rw [← List.map_eq_flatMap, List.take_add_one, hp, List.map_append]
            rfl
        _ = d.classNames.take (k + 1) := by
            rw [List.map_take, map_snd_withEarlier]
  | @inClass k c stop _ hnames hk hbefore hc =>
      have hclass : firstViolation d.classNames c.steps = some err :=
        ClassDecl.firstViolation_steps_eq_some_iff.2 ⟨stop, hc⟩
      rw [HierarchyDecl.steps, internedNames_append_of_none hnames,
        filterMap_interned?_classNameSteps, internedNames_flatMap hk hbefore hclass,
        hc.internedNames_steps, namesUpTo, hk]
      simp only [ClassDecl.filterMap_interned?_steps]
      rfl

/-- A declaration that is accepted has interned all its names. -/
theorem internedNames_steps_of_none (h : firstViolation d.classNames d.steps = none) :
    internedNames d.classNames d.steps = d.classNames ++ d.methodNames := by
  rw [internedNames_of_none h, HierarchyDecl.steps, List.filterMap_append,
    filterMap_interned?_classNameSteps, List.filterMap_flatMap, methodNames]
  simp only [ClassDecl.filterMap_interned?_steps]

/-- Whatever is reached is declared, as the name of a class or of a method. -/
theorem mem_classNames_or_methodNames_of_mem_namesUpTo {stop : BuildStop} {text : String}
    (h : text ∈ d.namesUpTo stop) : text ∈ d.classNames ∨ text ∈ d.methodNames := by
  cases stop with
  | className k => exact .inl (List.mem_of_mem_take h)
  | inClass k stop =>
      rw [namesUpTo, List.mem_append, List.mem_append] at h
      rcases h with hclass | hbefore | hwithin
      · exact .inl hclass
      · obtain ⟨c, hc, htext⟩ := List.mem_flatMap.1 hbefore
        exact .inr (List.mem_flatMap.2 ⟨c, List.mem_of_mem_take hc, htext⟩)
      · cases hk : d.classes[k]? with
        | none => simp [hk] at hwithin
        | some c =>
            rw [hk, Option.map_some, Option.getD_some] at hwithin
            have hmem : text ∈ c.methodNames := c.mem_methodNames_of_mem_namesUpTo hwithin
            exact .inr (List.mem_flatMap.2 ⟨c, List.mem_of_getElem? hk, hmem⟩)

/-- What building leaves: the names that were interned, in this order. -/
theorem build_snd (d : HierarchyDecl) (table : StringTable) :
    (d.build table).2 =
      (internedNames d.classNames d.steps).foldl StringTable.insert table := by
  rw [HierarchyDecl.build, d.building_follows table.id table rfl]

end HierarchyDecl

/-! ## The string table -/

/-- `t.Gains names t'`: the table `t'` holds what `t` holds and the given names, each of them once,
and nothing else. -/
structure StringTable.Gains (t : StringTable) (names : List String) (t' : StringTable) : Prop where
  id_eq : t'.id = t.id
  mem_texts_iff : ∀ text, text ∈ t'.texts ↔ text ∈ t.texts ∨ text ∈ names
  size_eq : t'.size = (t.texts ++ names).dedup.length

theorem mem_texts_foldl_insert (names : List String) (t : StringTable) (text : String) :
    text ∈ (names.foldl StringTable.insert t).texts ↔ text ∈ t.texts ∨ text ∈ names := by
  induction names generalizing t with
  | nil => simp
  | cons name names ih =>
      rw [List.foldl_cons, ih, StringTable.mem_texts_insert, List.mem_cons, or_assoc, or_left_comm]

/-- Neither the order of the names nor their repetition counts. -/
theorem StringTable.gains_foldl_insert (names : List String) (t : StringTable) :
    t.Gains names (names.foldl StringTable.insert t) := by
  refine ⟨id_foldl_insert names t, mem_texts_foldl_insert names t, ?_⟩
  have hperm : (names.foldl StringTable.insert t).texts.Perm (t.texts ++ names).dedup := by
    rw [List.perm_ext_iff_of_nodup (names.foldl StringTable.insert t).nodup (List.nodup_dedup _)]
    intro text
    rw [mem_texts_foldl_insert, List.mem_dedup, List.mem_append]
  exact hperm.length_eq

/-- Building adds to the string table the names that it reaches: those of all classes and methods if
the declaration is accepted, and else those up to the place where it is refused. Names that are
referred to are not added for that, so whatever is new in the table is the name of a declared class
or method. -/
theorem build_gains_namesUpTo (d : HierarchyDecl) (table : StringTable) :
    (∀ ts, (d.build table).1 = .ok ts →
      table.Gains (d.classNames ++ d.methodNames) (d.build table).2) ∧
    (∀ err, (d.build table).1 = .error err ↔ ∃ stop, d.StopsAt stop err) ∧
    (∀ stop err, d.StopsAt stop err → table.Gains (d.namesUpTo stop) (d.build table).2) ∧
    ∀ text ∈ (d.build table).2.texts,
      text ∈ table.texts ∨ text ∈ d.classNames ∨ text ∈ d.methodNames := by
  have hgains := StringTable.gains_foldl_insert (internedNames d.classNames d.steps) table
  rw [← d.build_snd table] at hgains
  have haccepted : firstViolation d.classNames d.steps = none →
      table.Gains (d.classNames ++ d.methodNames) (d.build table).2 := by
    intro hnone
    rwa [HierarchyDecl.internedNames_steps_of_none hnone] at hgains
  have hrefused : ∀ stop err, d.StopsAt stop err →
      table.Gains (d.namesUpTo stop) (d.build table).2 := by
    intro stop err hstop
    rwa [hstop.internedNames_steps] at hgains
  refine ⟨?_, ?_, hrefused, ?_⟩
  · intro ts hbuild
    rw [d.build_fst table] at hbuild
    exact haccepted (exists_verdict_eq_ok_iff.1 ⟨ts, hbuild⟩)
  · intro err
    rw [d.build_fst table, verdict_eq_error_iff, HierarchyDecl.firstViolation_steps_eq_some_iff]
  · intro text htext
    cases hfirst : firstViolation d.classNames d.steps with
    | none =>
        have hmem := ((haccepted hfirst).mem_texts_iff text).1 htext
        rwa [List.mem_append] at hmem
    | some err =>
        obtain ⟨stop, hstop⟩ := HierarchyDecl.firstViolation_steps_eq_some_iff.1 hfirst
        rcases ((hrefused stop err hstop).mem_texts_iff text).1 htext with hold | hnew
        · exact .inl hold
        · exact .inr (HierarchyDecl.mem_classNames_or_methodNames_of_mem_namesUpTo hnew)

/-! ### Names that are shared -/

/-- The class `A` has a method `A`, and `B` a method `f` as `A` has. What `g` returns is open. -/
def sharedNames (returns : String) : HierarchyDecl where
  classes := [
    { name := "A", methods := [{ name := "A", returns := "int" },
      { name := "f", returns := "B" }] },
    { name := "B", supertypes := ["A"], methods := [{ name := "f", returns := "A" },
      { name := "g", returns }, { name := "h", returns := "int" }] }]

/-- A table that holds `f` already. -/
def tableOfF : StringTable := (StringTable.empty 0).insert "f"

/-- If `g` is to return what does not exist, the table holds `f`, `A`, `B` and `g`. -/
theorem build_gains_sharedNames :
    (sharedNames "C").StopsAt (.inClass 1 (.signature 1)) (.typeDoesNotExist "C") ∧
      ((sharedNames "C").build tableOfF).1 = .error (.typeDoesNotExist "C") ∧
      tableOfF.Gains ["A", "B", "A", "f", "f", "g"] ((sharedNames "C").build tableOfF).2 ∧
      ((sharedNames "C").build tableOfF).2.size = 4 ∧
      (∃ ts, ((sharedNames "B").build tableOfF).1 = .ok ts) ∧
      ((sharedNames "B").build tableOfF).2.size = 5 := by
  obtain ⟨-, herror, hrefused, -⟩ := build_gains_namesUpTo (sharedNames "C") tableOfF
  have hstop : (sharedNames "C").StopsAt (.inClass 1 (.signature 1)) (.typeDoesNotExist "C") := by
    refine .inClass rfl rfl ?_ (.signature rfl rfl ?_ rfl)
    · decide
    · decide
  have hgains := hrefused _ _ hstop
  have hok : ((sharedNames "B").build tableOfF).1 = .ok ((sharedNames "B").typeSystem 0) := rfl
  have haccepted := (build_gains_namesUpTo (sharedNames "B") tableOfF).1 _ hok
  exact ⟨hstop, (herror _).2 ⟨_, hstop⟩, hgains, hgains.size_eq, ⟨_, hok⟩, haccepted.size_eq⟩

end Nominal
