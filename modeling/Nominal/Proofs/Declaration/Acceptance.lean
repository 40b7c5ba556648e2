import Nominal.Proofs.Declaration.Members

/-!
# Which declarations are accepted

Both passes of the building follow the steps of the declaration. Between them the type system is
known at every moment: the classes that are done have the definitions they are declared with, the
others have nothing but a name (`partialSystem`).

* `HierarchyDecl.building_follows` — the building, step by step;
* `build_eq_ok_iff_valid_and_eq_error_iff_firstViolation` — a declaration is accepted exactly if it
  is valid, and refused with its first violation.
-/

namespace Nominal

/-! ## The type systems on the way -/

/-- The type system in which the classes `done` are defined, and the classes `waiting` are declared
behind them. -/
def partialSystem (table : Nat) (done waiting : List ClassDecl) : TypeSystem where
  classes :=
    (done.map fun c => (classIdOf table c.name, c.definition table)) ++
      waiting.map fun c => (classIdOf table c.name, .fresh ⟨table, c.name⟩)

/-- The type system that a declaration describes. -/
def HierarchyDecl.typeSystem (table : Nat) (d : HierarchyDecl) : TypeSystem :=
  partialSystem table d.classes []

section PartialSystem

variable (table : Nat) (done waiting : List ClassDecl)

theorem partialSystem_declares :
    (partialSystem table done waiting).Declares table ((done ++ waiting).map (·.name)) := by
  simp [TypeSystem.Declares, partialSystem, Function.comp_def]

/-- The next class that waits is known by its name only. -/
theorem class?_partialSystem {c : ClassDecl} (h : c.name ∉ done.map (·.name)) :
    (partialSystem table done (c :: waiting)).class? (classIdOf table c.name) =
      some (.fresh ⟨table, c.name⟩) := by
  have hnone : (done.map fun c => (classIdOf table c.name, c.definition table)).find?
      (·.1 = classIdOf table c.name) = none := by
    simpa [classIdOf_inj] using h
  unfold TypeSystem.class? partialSystem
  rw [List.find?_append, hnone]
  simp

/-- Entries under other ids are not replaced. -/
theorem map_replace_of_notMem {id : ClassId} {entries : List (ClassId × ClassDef)}
    (h : id ∉ entries.map (·.1)) (c : ClassDef) :
    entries.map (fun entry => if entry.1 = id then (id, c) else entry) = entries := by
  have hsame : ∀ entry ∈ entries, (if entry.1 = id then (id, c) else entry) = entry := by
    intro entry hentry
    have hne : entry.1 ≠ id := by
      intro heq
      exact h (heq ▸ List.mem_map_of_mem hentry)
    rw [if_neg hne]
  rw [List.map_congr_left hsame, List.map_id']

/-- The class that waited for its definition gets it, and the others stay what they are. -/
theorem replace_partialSystem {c : ClassDecl} (hdone : c.name ∉ done.map (·.name))
    (hwaiting : c.name ∉ waiting.map (·.name)) :
    (partialSystem table done (c :: waiting)).replace (classIdOf table c.name)
        (c.definition table) =
      partialSystem table (done ++ [c]) waiting := by
  have hdone' : classIdOf table c.name ∉
      (done.map fun c => (classIdOf table c.name, c.definition table)).map (·.1) := by
    simpa [classIdOf_inj] using hdone
  have hwaiting' : classIdOf table c.name ∉
      (waiting.map fun c =>
        (classIdOf table c.name, ClassDef.fresh ⟨table, c.name⟩)).map (·.1) := by
    simpa [classIdOf_inj] using hwaiting
  unfold TypeSystem.replace partialSystem
  simp only [List.map_append, List.map_cons, map_replace_of_notMem hdone',
    map_replace_of_notMem hwaiting', if_true]
  simp

end PartialSystem

/-! ## Declaring -/

theorem isSome_class?_iff (table : Nat) (earlier : List ClassDecl) (name : String) :
    ((partialSystem table [] earlier).class? (classIdOf table name)).isSome = true ↔
      name ∈ earlier.map (·.name) := by
  simp [TypeSystem.class?, partialSystem, classIdOf_inj]

/-- A class is added by name unless its name is reserved or taken. -/
theorem addClass_partialSystem (table : Nat) (declared : List String) (earlier : List ClassDecl)
    (c : ClassDecl) :
    (partialSystem table [] earlier).addClass (.fresh ⟨table, c.name⟩) =
      verdict ((BuildStep.className (earlier.map (·.name)) c.name).violation declared)
        (classIdOf table c.name, partialSystem table [] (earlier ++ [c])) := by
  have hname : (ClassDef.fresh ⟨table, c.name⟩).name.text = c.name := rfl
  have hid : (⟨(ClassDef.fresh ⟨table, c.name⟩).name⟩ : ClassId) = classIdOf table c.name := rfl
  unfold TypeSystem.addClass
  rw [hname, hid]
  by_cases hreserved : c.name ∈ reservedNames
  · rw [if_pos (isReserved_iff.2 hreserved)]
    simp only [BuildStep.violation, hreserved, if_true, verdict_some]
  · rw [if_neg (mt isReserved_iff.1 hreserved)]
    by_cases hmem : c.name ∈ earlier.map (·.name)
    · have hsome := (isSome_class?_iff table earlier c.name).2 hmem
      rcases Option.isSome_iff_exists.1 hsome with ⟨found, hfound⟩
      rw [hfound]
      simp only [BuildStep.violation, hreserved, hmem, if_true, if_false, verdict_some]
    · have hnone := mt (isSome_class?_iff table earlier c.name).1 hmem
      rw [Option.not_isSome_iff_eq_none] at hnone
      rw [hnone]
      simp [BuildStep.violation, hreserved, hmem, partialSystem]

theorem HierarchyDecl.declareClasses_follows (table : Nat) (declared : List String)
    (earlier classes : List ClassDecl) :
    Follows declared table
      (declareClasses (partialSystem table [] earlier) classes)
      (classNameSteps (earlier.map (·.name)) (classes.map (·.name)))
      (classes.map (fun c => classIdOf table c.name),
        partialSystem table [] (earlier ++ classes)) := by
  induction classes generalizing earlier with
  | nil =>
      rw [List.append_nil]
      exact .pure _
  | cons c classes ih =>
      have hadd : Follows declared table
          (liftM ((partialSystem table [] earlier).addClass (.fresh ⟨table, c.name⟩)))
          [.className (earlier.map (·.name)) c.name]
          (classIdOf table c.name, partialSystem table [] (earlier ++ [c])) := by
        refine .lift (by simp [BuildStep.interned?]) ?_
        rw [addClass_partialSystem table declared, firstViolation_singleton]
      have hrest := ih (earlier ++ [c])
      have happend : earlier ++ c :: classes = earlier ++ [c] ++ classes := by simp
      have hsteps : classNameSteps (earlier.map (·.name)) ((c :: classes).map (·.name)) =
          [.intern c.name] ++ ([.className (earlier.map (·.name)) c.name] ++
            (classNameSteps ((earlier ++ [c]).map (·.name)) (classes.map (·.name)) ++ [])) := by
        simp [classNameSteps, withEarlier]
      rw [hsteps, happend]
      exact (Follows.internName c.name).bind fun _ =>
        hadd.bind fun _ => hrest.bind fun _ => .pure _

/-! ## Defining -/

theorem HierarchyDecl.defineClasses_follows (table : Nat) (done waiting : List ClassDecl)
    (hnodup : ((done ++ waiting).map (·.name)).Nodup) :
    Follows ((done ++ waiting).map (·.name)) table
      (defineClasses (partialSystem table done waiting)
        (waiting.map fun c => (classIdOf table c.name, c)))
      (waiting.flatMap ClassDecl.steps)
      (partialSystem table (done ++ waiting) []) := by
  induction waiting generalizing done with
  | nil =>
      rw [List.append_nil]
      exact .pure _
  | cons c waiting ih =>
      have happend : done ++ c :: waiting = done ++ [c] ++ waiting := by simp
      have hnodup' := hnodup
      rw [List.map_append, List.map_cons, List.nodup_append, List.nodup_cons] at hnodup'
      rcases hnodup' with ⟨_, ⟨hwaiting, _⟩, hdisjoint⟩
      have hdone : c.name ∉ done.map (·.name) := by
        intro hmem
        exact hdisjoint c.name hmem c.name List.mem_cons_self rfl
      have hresolve := c.resolve_follows (partialSystem_declares table done (c :: waiting))
      have hupdate : Follows ((done ++ c :: waiting).map (·.name)) table
          (liftM ((partialSystem table done (c :: waiting)).update (classIdOf table c.name)
            (·.addMembers (c.members table))))
          (ClassDecl.methodNameSteps c.name [] c.methodNames)
          (partialSystem table (done ++ [c]) waiting) := by
        refine .lift (fun _ => ClassDecl.interned?_eq_none_of_mem_methodNameSteps) ?_
        unfold TypeSystem.update
        rw [class?_partialSystem table done waiting hdone]
        simp only [addMembers_fresh table ((done ++ c :: waiting).map (·.name)) c, map_verdict,
          replace_partialSystem table done waiting hdone hwaiting]
      have hrest := ih (done ++ [c]) (happend ▸ hnodup)
      rw [← happend] at hrest
      have hsteps : (c :: waiting).flatMap ClassDecl.steps =
          c.resolutionSteps ++ (ClassDecl.methodNameSteps c.name [] c.methodNames ++
            waiting.flatMap ClassDecl.steps) := by
        rw [List.flatMap_cons, ClassDecl.steps, List.append_assoc]
      rw [hsteps]
      exact hresolve.bind fun _ => hupdate.bind fun _ => hrest

/-! ## Both passes -/

/-- The building goes through the steps of the declaration and comes to the type system that it
describes. -/
theorem HierarchyDecl.building_follows (table : Nat) (d : HierarchyDecl) :
    Follows d.classNames table d.building d.steps (d.typeSystem table) := by
  have hdeclare := declareClasses_follows table d.classNames [] d.classes
  refine hdeclare.bind ?_
  intro hnone
  -- The second pass is reached only if no name was repeated, so every id stands for one class.
  have hnodup : d.classNames.Nodup := by
    rw [firstViolation_eq_none_iff] at hnone
    exact (forall_classNameSteps_iff.1 hnone).2
  have hzip : (d.classes.map fun c => classIdOf table c.name).zip d.classes =
      d.classes.map fun c => (classIdOf table c.name, c) := by
    rw [List.map_prod_right_eq_zip]
  have hdefine := defineClasses_follows table [] d.classes hnodup
  rw [← hzip] at hdefine
  exact hdefine

/-- What building comes to: the first violation, or else the type system that is declared. -/
theorem HierarchyDecl.build_fst (d : HierarchyDecl) (table : StringTable) :
    (d.build table).1 =
      verdict (firstViolation d.classNames d.steps) (d.typeSystem table.id) := by
  rw [HierarchyDecl.build, d.building_follows table.id table rfl]

/-- A declaration is accepted exactly if it is valid, and any other is refused with the violation of
the first step that violates a rule. -/
theorem build_eq_ok_iff_valid_and_eq_error_iff_firstViolation (d : HierarchyDecl)
    (table : StringTable) :
    ((∃ ts, (d.build table).1 = .ok ts) ↔ d.Valid) ∧
      ∀ err, (d.build table).1 = .error err ↔ d.FirstViolation err := by
  rw [d.build_fst table, exists_verdict_eq_ok_iff, d.valid_iff_firstViolation_eq_none]
  refine ⟨Iff.rfl, ?_⟩
  intro err
  rw [verdict_eq_error_iff, d.firstViolation_eq_some_iff]

/-- All signatures of a class come before the names of its methods. -/
example :
    let f : MethodDecl := { name := "f", returns := "int" }
    let a : ClassDecl := { name := "A", methods := [f, { f with returns := "B" }] }
    let d : HierarchyDecl := { classes := [a] }
    (d.build (.empty 0)).1 = .error (.typeDoesNotExist "B") := rfl

end Nominal
