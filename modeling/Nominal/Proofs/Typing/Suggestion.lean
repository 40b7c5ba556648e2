import Nominal.Proofs.Typing.Agreement
import Nominal.Proofs.Typing.FirstError

/-!
# Suggestions

A call of a method that the receiver's type does not declare is refused with the name of one that
was probably meant. Which name that is depends on the methods of the receiver's class alone, and not
on the order in which they are held (`TypeSystem.Suggests`): the method that is called is none of
them, so all of them are candidates. A call of the suggested method is resolved.

Main statement: `suggestion_of_check_eq_unknownMethod`.
-/

namespace Nominal

/-- `ts.Suggests t x text`: the type `t` is a class of `ts`, and among the methods that the class
itself declares within two edits of `x` one called `text` comes first by distance and text. -/
def TypeSystem.Suggests (ts : TypeSystem) (t : Ty) (x : Symbol) (text : String) : Prop :=
  ∃ id c s, t = .cls id ∧ ts.class? id = some c ∧ s ∈ c.methodNames ∧ s.text = text ∧
    x.distance s ≤ 2 ∧
    ∀ other ∈ c.methodNames, x.distance other ≤ 2 → x.priority s ≤ x.priority other

variable {ts : TypeSystem} {t : Ty} {x : Symbol} {id : ClassId} {c : ClassDef}

/-! ## What is suggested -/

section Suggests

variable (hnone : ts.method? t x = none)
include hnone

theorem not_mem_methodNames (ht : t = .cls id) (hc : ts.class? id = some c) :
    x ∉ c.methodNames := by
  rw [← ClassDef.method?_eq_none_iff]
  exact TypeSystem.method?_eq_none_iff.1 hnone id c ht hc

/-- A method that is not declared is no candidate, so only the distance counts. -/
theorem eligible_iff_of_mem_methodNames (ht : t = .cls id) (hc : ts.class? id = some c) {s : Symbol}
    (hs : s ∈ c.methodNames) : x.Eligible s ↔ x.distance s ≤ 2 := by
  refine and_iff_right ?_
  rintro rfl
  exact not_mem_methodNames hnone ht hc hs

theorem text_suggestMethod_eq_some_iff {text : String} :
    (ts.suggestMethod t x).map Symbol.text = some text ↔ ts.Suggests t x text := by
  constructor
  · intro h
    cases hresolve : ts.resolve? t with
    | none => simp [TypeSystem.suggestMethod, hresolve] at h
    | some c =>
        rw [TypeSystem.suggestMethod, hresolve, Option.bind_some,
          Symbol.map_text_closest_eq_some_iff] at h
        obtain ⟨id, ht, hc⟩ := TypeSystem.resolve?_eq_some_iff.1 hresolve
        obtain ⟨s, hs, heligible, htext, hle⟩ := h
        refine ⟨id, c, s, ht, hc, hs, htext, heligible.2, ?_⟩
        intro other hother hnear
        exact hle other hother ((eligible_iff_of_mem_methodNames hnone ht hc hother).2 hnear)
  · rintro ⟨id, c, s, ht, hc, hs, htext, hnear, hle⟩
    have hresolve : ts.resolve? t = some c := TypeSystem.resolve?_eq_some_iff.2 ⟨id, ht, hc⟩
    rw [TypeSystem.suggestMethod, hresolve, Option.bind_some, Symbol.map_text_closest_eq_some_iff]
    refine ⟨s, hs, (eligible_iff_of_mem_methodNames hnone ht hc hs).2 hnear, htext, ?_⟩
    intro other hother heligible
    exact hle other hother heligible.2

/-- Something is suggested as soon as some method of the class is near enough. -/
theorem exists_suggests_iff :
    (∃ text, ts.Suggests t x text) ↔
      ∃ id c s, t = .cls id ∧ ts.class? id = some c ∧ s ∈ c.methodNames ∧ x.distance s ≤ 2 := by
  constructor
  · rintro ⟨text, id, c, s, ht, hc, hs, -, hnear, -⟩
    exact ⟨id, c, s, ht, hc, hs, hnear⟩
  · rintro ⟨id, c, s, ht, hc, hs, hnear⟩
    have hresolve : ts.resolve? t = some c := TypeSystem.resolve?_eq_some_iff.2 ⟨id, ht, hc⟩
    have heligible : x.Eligible s := (eligible_iff_of_mem_methodNames hnone ht hc hs).2 hnear
    cases hclosest : x.closest c.methodNames with
    | none => exact absurd heligible (Symbol.closest_eq_none_iff.1 hclosest s hs)
    | some best =>
        refine ⟨best.text, (text_suggestMethod_eq_some_iff hnone).1 ?_⟩
        rw [TypeSystem.suggestMethod, hresolve, Option.bind_some, hclosest, Option.map_some]

/-- A method of the same table that has the same text would be the method that is called. -/
theorem TypeSystem.Suggests.ne_text {text : String} (h : ts.Suggests t x text)
    (ht : t = .cls id) (hc : ts.class? id = some c)
    (htable : ∀ s ∈ c.methodNames, s.table = x.table) :
    text ≠ x.text := by
  obtain ⟨id', c', s, ht', hc', hs, rfl, -⟩ := h
  rcases Ty.cls.inj (ht.symm.trans ht') with rfl
  rcases Option.some.inj (hc.symm.trans hc') with rfl
  intro htext
  rw [Symbol.eq_of_text_eq (htable s hs) htext] at hs
  exact not_mem_methodNames hnone ht hc hs

end Suggests

/-! ## The call that is refused -/

/-- Only a call of a method that its receiver's type does not declare is refused with a
suggestion. -/
theorem Violates.exists_call_of_unknownMethod {e : Expr} {type name : String}
    {hint : Option String} (h : Violates ts e (.unknownMethod type name hint)) :
    ∃ receiver x args, e = .call receiver x args ∧
      ts.method? (receiver.staticType ts) x = none ∧ type = (receiver.staticType ts).text ∧
      name = x.text ∧ hint = (ts.suggestMethod (receiver.staticType ts) x).map Symbol.text := by
  cases h with
  | resolution hunres =>
      cases hunres with
      | unknownMethod _ hnone =>
          exact ⟨_, _, _, rfl, TypeSystem.method?_eq_none_iff.2 hnone, rfl, rfl, rfl⟩

theorem TypeSystem.Suggests.exists_method? {text : String} (h : ts.Suggests t x text) :
    ∃ s m, s.text = text ∧ ts.method? t s = some m := by
  obtain ⟨id, c, s, ht, hc, hs, htext, -⟩ := h
  have hsome : ts.method? t s ≠ none := by
    intro hno
    exact not_mem_methodNames hno ht hc hs
  obtain ⟨m, hm⟩ := Option.ne_none_iff_exists'.1 hsome
  exact ⟨s, m, htext, hm⟩

/-- A call of a method that the receiver's type declares is resolved, whatever is passed. -/
theorem exists_invokes_of_method? {receiver : Expr} {s : Symbol} {m : Method} (args : List Expr)
    (h : ts.method? (receiver.staticType ts) s = some m) :
    ∃ target, Invokes ts (.call receiver s args) target := by
  obtain ⟨c, hresolve, hm⟩ := Option.bind_eq_some_iff.1 h
  obtain ⟨id, ht, hc⟩ := TypeSystem.resolve?_eq_some_iff.1 hresolve
  exact ⟨_, .method ht hc hm⟩

/-- Where an expression is refused for a call of an unknown method, the suggestion is the nearest
name among the methods of the receiver's class, the first by text of several. There is one exactly
if some method of the class is at most two edits away. It is the same in whatever order the methods
are gone through or were added, and it differs from the name that was called if all these names are
from one table. In the place of that name, it makes a call that is resolved, so that an error of the
call itself is one of its arguments. -/
theorem suggestion_of_check_eq_unknownMethod (ts : TypeSystem) (e : Expr) (type name : String)
    (hint : Option String) (h : e.check ts = .error (.unknownMethod type name hint)) :
    ∃ path receiver x args,
      FailsAt ts e path (.unknownMethod type name hint) ∧
      e.nodeAt path = some (.call receiver x args) ∧
      type = (receiver.staticType ts).text ∧ name = x.text ∧
      ((∃ text, hint = some text) ↔
        ∃ id c s, receiver.staticType ts = .cls id ∧ ts.class? id = some c ∧ s ∈ c.methodNames ∧
          x.distance s ≤ 2) ∧
      (∀ text, hint = some text ↔ ts.Suggests (receiver.staticType ts) x text) ∧
      (∀ id c, receiver.staticType ts = .cls id → ts.class? id = some c →
        (∀ names : List Symbol, (∀ s, s ∈ names ↔ s ∈ c.methodNames) →
          hint = (x.closest names).map Symbol.text) ∧
        ((∀ s ∈ c.methodNames, s.table = x.table) → hint ≠ some x.text)) ∧
      (∀ ts', ts.Matches ClassDef.Reorders ts' →
        e.check ts' = .error (.unknownMethod type name hint)) ∧
      ∀ text, hint = some text → ∃ s m, s.text = text ∧
        ts.method? (receiver.staticType ts) s = some m ∧
        ∀ err, FailsAt ts (.call receiver s args) [] err →
          err.kind = .arityMismatch ∨ err.kind = .argumentTypeMismatch := by
  obtain ⟨path, hfails⟩ := exists_failsAt_of_check h
  obtain ⟨node, hnode, hviolates⟩ := hfails.here
  obtain ⟨receiver, x, args, rfl, hnone, htype, hname, hhint⟩ :=
    hviolates.exists_call_of_unknownMethod
  have hsuggests : ∀ text, hint = some text ↔ ts.Suggests (receiver.staticType ts) x text := by
    intro text
    rw [hhint]
    exact text_suggestMethod_eq_some_iff hnone
  refine ⟨path, receiver, x, args, hfails, hnode, htype, hname, ?given, hsuggests, ?ofClass,
    ?reordered, ?resolved⟩
  case given =>
    simp only [hsuggests]
    exact exists_suggests_iff hnone
  case ofClass =>
    intro id c ht hc
    constructor
    · intro names hnames
      have hresolve := TypeSystem.resolve?_eq_some_iff.2 ⟨id, ht, hc⟩
      rw [hhint, TypeSystem.suggestMethod, hresolve, Option.bind_some]
      exact (Symbol.text_closest_congr hnames).symm
    · intro htable hsame
      exact ((hsuggests x.text).1 hsame).ne_text hnone ht hc htable rfl
  case reordered =>
    intro ts' hreorders
    rw [check_of_agrees (hreorders.imp fun _ _ hc => hc.agrees), h]
  case resolved =>
    intro text htext
    obtain ⟨s, m, hs, hm⟩ := ((hsuggests text).1 htext).exists_method?
    obtain ⟨target, hinv⟩ := exists_invokes_of_method? args hm
    refine ⟨s, m, hs, hm, ?_⟩
    intro err hfailed
    exact (failsAt_nil_iff.1 hfailed).kind_of_invokes hinv

/-! ### A call of a method that only the supertype declares -/

/-- The methods `scall()` and `scale(double)`, both one edit from `scal`. -/
def scaleMethods : List Method :=
  [⟨⟨0, "scall"⟩, [], .void⟩, ⟨⟨0, "scale"⟩, [.double], .void⟩]

/-- The class `Point` with the given methods, below `Shape` with `scal()`. -/
def pointBelowShape (methods : List Method) : TypeSystem where
  classes :=
    [(⟨⟨0, "Shape"⟩⟩, { name := ⟨0, "Shape"⟩, methods := [⟨⟨0, "scal"⟩, [], .void⟩] }),
      (⟨⟨0, "Point"⟩⟩, { name := ⟨0, "Point"⟩, supertypes := [⟨⟨0, "Shape"⟩⟩], methods })]

/-- The call `p.scal()` on a `Point`. -/
def scalCall : Expr := .call (.var ⟨0, "p"⟩ (.cls ⟨⟨0, "Point"⟩⟩)) ⟨0, "scal"⟩ []

theorem suggestion_scalCall :
    scalCall.check (pointBelowShape scaleMethods) =
        .error (.unknownMethod "Point" "scal" (some "scale")) ∧
      (pointBelowShape scaleMethods).Suggests (.cls ⟨⟨0, "Point"⟩⟩) ⟨0, "scal"⟩ "scale" ∧
      (pointBelowShape scaleMethods).Matches ClassDef.Reorders
        (pointBelowShape scaleMethods.reverse) ∧
      scalCall.check (pointBelowShape scaleMethods.reverse) =
        .error (.unknownMethod "Point" "scal" (some "scale")) := by
  have hcheck : scalCall.check (pointBelowShape scaleMethods) =
      .error (.unknownMethod "Point" "scal" (some "scale")) := by decide
  have hreorders : (pointBelowShape scaleMethods).Matches ClassDef.Reorders
      (pointBelowShape scaleMethods.reverse) := by
    intro id
    by_cases hshape : id = ⟨⟨0, "Shape"⟩⟩
    · subst hshape
      exact .some ⟨rfl, fun _ => Iff.rfl, rfl, .refl _, by decide⟩
    · by_cases hpoint : id = ⟨⟨0, "Point"⟩⟩
      · subst hpoint
        exact .some ⟨rfl, fun _ => Iff.rfl, rfl, (List.reverse_perm scaleMethods).symm, by decide⟩
      · simp [TypeSystem.class?, pointBelowShape, Ne.symm hshape, Ne.symm hpoint]
  obtain ⟨path, receiver, x, args, -, hnode, -, -, -, hsuggests, -, hreordered, -⟩ :=
    suggestion_of_check_eq_unknownMethod _ _ _ _ _ hcheck
  -- The call has no arguments, so it is refused at its root.
  cases path with
  | cons i path =>
      obtain ⟨arg, harg, -⟩ := Expr.exists_arg_of_nodeAt_cons hnode
      simp [scalCall] at harg
  | nil =>
      rcases Expr.call.inj (Option.some.inj hnode) with ⟨rfl, rfl, rfl⟩
      exact ⟨hcheck, (hsuggests "scale").1 rfl, hreorders, hreordered _ hreorders⟩

end Nominal
