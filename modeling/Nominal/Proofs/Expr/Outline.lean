import Mathlib.Data.List.Basic
import Mathlib.Data.List.Induction
import Nominal.Proofs.Expr.Tree

/-!
# Printed expressions are unambiguous

Printing drops declared types, and the tables that names come from. What it keeps is the outline of
an expression: the tree of its calls, with the texts of their names and of the leaves. If no name
contains a separator, and no leaf contains one but dots, then the outline can be told from the text.

A text is read from its end. A leaf does not end in a parenthesis and a call does. In front of the
closing parenthesis stand the arguments, the last one first, as far as an opening parenthesis. In
front of that stands the name up to the next separator, and this is a dot in a method call and a
blank in a construction. So what ends in the text of an expression ends in the text of no other one,
wherever an expression may begin (`Outline.Determined`).

Main statement: `text_eq_iff_outline_eq`.
-/

namespace Nominal

/-! ## Outlines -/

/-- What printing keeps of an expression. -/
inductive Outline where
  | leaf (text : String)
  | call (receiver : Outline) (method : String) (args : List Outline)
  | new (type : String) (args : List Outline)
  deriving Repr

namespace Expr

mutual

/-- The outline of an expression. -/
def outline : Expr → Outline
  | .var name _ => .leaf name.text
  | .lit spelling _ => .leaf spelling
  | .null => .leaf "null"
  | .call receiver method args => .call receiver.outline method.text (outlines args)
  | .new type args => .new type.text (outlines args)

/-- The outlines of the arguments of a call. -/
def outlines : List Expr → List Outline
  | [] => []
  | e :: es => e.outline :: outlines es

end

theorem outlines_eq_map (args : List Expr) : outlines args = args.map outline := by
  induction args with
  | nil => rfl
  | cons arg args ih => rw [outlines, ih, List.map_cons]

end Expr

namespace Outline

mutual

/-- An outline as it is written. -/
def chars : Outline → List Char
  | .leaf text => text.toList
  | .call receiver method args =>
    receiver.chars ++ ['.'] ++ method.toList ++
      ('(' :: List.intercalate [',', ' '] (charsAll args)) ++ [')']
  | .new type args =>
    ['n', 'e', 'w'] ++ [' '] ++ type.toList ++
      ('(' :: List.intercalate [',', ' '] (charsAll args)) ++ [')']

/-- The arguments of a call, each as it is written. -/
def charsAll : List Outline → List (List Char)
  | [] => []
  | arg :: args => arg.chars :: charsAll args

end

theorem charsAll_eq_map (args : List Outline) : charsAll args = args.map chars := by
  induction args with
  | nil => rfl
  | cons arg args ih => rw [charsAll, ih, List.map_cons]

end Outline

theorem Expr.texts_eq_map (args : List Expr) : texts args = args.map text := by
  induction args with
  | nil => rfl
  | cons arg args ih => rw [texts, ih, List.map_cons]

theorem Expr.toList_intercalate_texts {args : List Expr}
    (h : ∀ arg ∈ args, arg.text.toList = arg.outline.chars) :
    (String.intercalate ", " (texts args)).toList =
      List.intercalate [',', ' '] (Outline.charsAll (outlines args)) := by
  have hmap : args.map (fun arg => arg.text.toList) = args.map fun arg => arg.outline.chars :=
    List.map_congr_left h
  rw [String.toList_intercalate, texts_eq_map, outlines_eq_map, Outline.charsAll_eq_map,
    List.map_map, List.map_map]
  exact congrArg (List.intercalate [',', ' ']) hmap

/-- The text of an expression is that of its outline. -/
theorem Expr.toList_text (e : Expr) : e.text.toList = e.outline.chars := by
  induction e with
  | var name declared => rfl
  | lit spelling type => rfl
  | null => rfl
  | call receiver method args ih ihargs =>
      simp [text, outline, Outline.chars, ih, toList_intercalate_texts ihargs]
  | new type args ih => simp [text, outline, Outline.chars, toList_intercalate_texts ih]

/-! ## Names and spellings -/

/-- The characters that printing puts between names. -/
def separators : List Char := [' ', ',', '.', '(', ')']

/-- A text without separators, as names are. Letters, digits and underscores are no separators. -/
def IsWord (text : String) : Prop :=
  text ≠ "" ∧ ∀ c ∈ text.toList, c ∉ separators

/-- A text without separators but dots, as numbers are. -/
def IsDotted (text : String) : Prop :=
  text ≠ "" ∧ ∀ c ∈ text.toList, c ∉ separators ∨ c = '.'

theorem IsWord.isDotted {text : String} (h : IsWord text) : IsDotted text :=
  ⟨h.1, fun c hc => .inl (h.2 c hc)⟩

/-- A character of an identifier. -/
def isNameChar (c : Char) : Bool := c.isAlphanum || c == '_'

theorem not_mem_separators_of_isNameChar {c : Char} (h : isNameChar c = true) :
    c ∉ separators := by
  intro hmem
  simp only [separators, List.mem_cons, List.not_mem_nil, or_false] at hmem
  rcases hmem with rfl | rfl | rfl | rfl | rfl <;> simp [isNameChar] at h

/-- Identifiers are words. -/
theorem isWord_of_all_isNameChar {text : String} (hne : text ≠ "")
    (h : text.toList.all isNameChar = true) : IsWord text :=
  ⟨hne, fun c hc => not_mem_separators_of_isNameChar (List.all_eq_true.1 h c hc)⟩

/-- Numbers are words with dots in them. -/
theorem isDotted_of_all_isNameChar {text : String} (hne : text ≠ "")
    (h : text.toList.all (fun c => isNameChar c || c == '.') = true) : IsDotted text := by
  refine ⟨hne, ?_⟩
  intro c hc
  have hchar := List.all_eq_true.1 h c hc
  simp only [Bool.or_eq_true, beq_iff_eq] at hchar
  exact hchar.imp_left not_mem_separators_of_isNameChar

/-- The symbol that a type is printed with, unless the type is builtin. -/
def Ty.symbol? : Ty → Option Symbol
  | .cls id => some id.key
  | .unknown method => some method
  | .int | .boolean | .double | .void | .null => none

theorem Ty.isWord_text {t : Ty} (h : ∀ name, t.symbol? = some name → IsWord name.text) :
    IsWord t.text := by
  cases t with
  | cls id => exact h id.key rfl
  | unknown method =>
      have hword : IsWord method.text := h method rfl
      refine ⟨by simp [text], ?_⟩
      intro c hc
      simp only [text, String.toList_append, List.mem_append] at hc
      rcases hc with hmark | hc
      · have hmark' : c = '?' := by simpa using hmark
        rw [hmark']
        decide
      · exact hword.2 c hc
  | int | boolean | double | void | null => exact isWord_of_all_isNameChar (by decide) rfl

/-- The names in an expression are words, and its literals are words with dots in them. -/
inductive Expr.Legible : Expr → Prop where
  | var {name : Symbol} {declared : Ty} : IsWord name.text → Legible (.var name declared)
  | lit {spelling : String} {type : Ty} : IsDotted spelling → Legible (.lit spelling type)
  | null : Legible .null
  | call {receiver : Expr} {method : Symbol} {args : List Expr} :
      Legible receiver → IsWord method.text → (∀ arg ∈ args, Legible arg) →
      Legible (.call receiver method args)
  | new {type : Ty} {args : List Expr} :
      (∀ name, type.symbol? = some name → IsWord name.text) → (∀ arg ∈ args, Legible arg) →
      Legible (.new type args)

/-- The names in an outline are words, and its leaves are words with dots in them. -/
inductive Outline.Legible : Outline → Prop where
  | leaf {text : String} : IsDotted text → Legible (.leaf text)
  | call {receiver : Outline} {method : String} {args : List Outline} :
      Legible receiver → IsWord method → (∀ arg ∈ args, Legible arg) →
      Legible (.call receiver method args)
  | new {type : String} {args : List Outline} :
      IsWord type → (∀ arg ∈ args, Legible arg) → Legible (.new type args)

theorem Expr.Legible.outline {e : Expr} (h : e.Legible) : e.outline.Legible := by
  induction h with
  | var hname => exact .leaf hname.isDotted
  | lit hspelling => exact .leaf hspelling
  | null => exact .leaf (isDotted_of_all_isNameChar (by decide) rfl)
  | call _ hmethod _ ih ihargs =>
      refine .call ih hmethod ?_
      rw [outlines_eq_map]
      exact List.forall_mem_map.2 ihargs
  | new htype _ ihargs =>
      refine .new (Ty.isWord_text htype) ?_
      rw [outlines_eq_map]
      exact List.forall_mem_map.2 ihargs

/-! ## Where a text ends -/

namespace Outline

/-- `Ends p s`: the text `s` is empty, or its last character has the property `p`. -/
def Ends (p : Char → Prop) (s : List Char) : Prop :=
  ∀ c ∈ s.getLast?, p c

/-- A text behind which an expression may begin. -/
def LeadsIn (s : List Char) : Prop :=
  Ends (fun c => c = '(' ∨ c = ' ') s

section Ends

variable {p : Char → Prop} {s t v w : List Char} {c : Char}

@[simp] theorem ends_concat : Ends p (s ++ [c]) ↔ p c := by
  simp [Ends]

theorem eq_nil_of_ends_append (h : Ends (fun c => ¬ p c) (s ++ w)) (hw : ∀ c ∈ w, p c) :
    w = [] := by
  rcases List.eq_nil_or_concat' w with hnil | ⟨w', c, rfl⟩
  · exact hnil
  · rw [← List.append_assoc, ends_concat] at h
    exact absurd (hw c (List.mem_append_right _ (List.mem_singleton_self c))) h

/-- A run of characters with a property is told from what stands in front of it, if that does not
end in such a character. -/
theorem append_run_inj (hs : Ends (fun c => ¬ p c) s) (ht : Ends (fun c => ¬ p c) t)
    (hv : ∀ c ∈ v, p c) (hw : ∀ c ∈ w, p c) (h : s ++ v = t ++ w) : s = t ∧ v = w := by
  rcases List.append_eq_append_iff.1 h with ⟨u, rfl, rfl⟩ | ⟨u, rfl, rfl⟩
  · have hu : u = [] := eq_nil_of_ends_append ht fun c hc => hv c (List.mem_append_left _ hc)
    subst hu
    simp
  · have hu : u = [] := eq_nil_of_ends_append hs fun c hc => hw c (List.mem_append_left _ hc)
    subst hu
    simp

/-- Where an expression may begin, no leaf is cut in two. -/
theorem LeadsIn.ends_not_spelling (h : LeadsIn s) :
    Ends (fun c => ¬ (c ∉ separators ∨ c = '.')) s := by
  intro c hc
  rcases h c hc with rfl | rfl <;> decide

end Ends

/-! ## Reading from the end -/

/-- A text that ends in the text of `a` ends in the text of no other legible outline, wherever an
expression may begin. -/
def Determined (a : Outline) : Prop :=
  ∀ (b : Outline) (s t : List Char), b.Legible → LeadsIn s → LeadsIn t →
    s ++ a.chars = t ++ b.chars → s = t ∧ a = b

/-- The arguments of a call behind the opening parenthesis. -/
def listed (args : List Outline) : List Char :=
  '(' :: List.intercalate [',', ' '] (charsAll args)

/-- What stands in front of an argument that comes behind the arguments `args`. -/
def before : List Outline → List Char
  | [] => ['(']
  | arg :: args => listed (arg :: args) ++ [',', ' ']

theorem chars_call (receiver : Outline) (method : String) (args : List Outline) :
    (call receiver method args).chars =
      receiver.chars ++ ['.'] ++ method.toList ++ listed args ++ [')'] := by
  simp only [chars, listed]

theorem chars_new (type : String) (args : List Outline) :
    (new type args).chars = ['n', 'e', 'w'] ++ [' '] ++ type.toList ++ listed args ++ [')'] := by
  simp only [chars, listed]

theorem listed_concat (args : List Outline) (arg : Outline) :
    listed (args ++ [arg]) = before args ++ arg.chars := by
  cases args with
  | nil => simp [listed, before, charsAll]
  | cons first args =>
      simp only [before, listed, charsAll_eq_map, List.map_append, List.map_cons, List.map_nil,
        List.cons_append, List.cons.injEq, true_and]
      induction args generalizing first with
      | nil => simp
      | cons next args ih => simp [ih]

theorem leadsIn_append_before (s : List Char) (args : List Outline) :
    LeadsIn (s ++ before args) := by
  cases args with
  | nil => simp [LeadsIn, before]
  | cons arg args =>
      have hsplit : s ++ before (arg :: args) = s ++ listed (arg :: args) ++ [','] ++ [' '] := by
        simp [before]
      rw [hsplit, LeadsIn, ends_concat]
      exact .inr rfl

variable {s t : List Char}

/-- What stands in front of an argument says whether it is the first one. -/
theorem append_listed_of_append_before {as bs : List Outline}
    (h : s ++ before as = t ++ before bs) : s ++ listed as = t ++ listed bs := by
  have hlast := congrArg List.getLast? h
  cases as with
  | nil =>
      cases bs with
      | nil => exact h
      | cons b bs => simp [before] at hlast
  | cons a as =>
      cases bs with
      | nil => simp [before] at hlast
      | cons b bs =>
          simp only [before, ← List.append_assoc] at h
          exact List.append_cancel_right h

/-- A leaf ends in a character of its own. -/
theorem exists_concat_of_isDotted {text : String} (h : IsDotted text) :
    ∃ u c, text.toList = u ++ [c] ∧ (c ∉ separators ∨ c = '.') := by
  rcases List.eq_nil_or_concat' text.toList with hnil | ⟨u, c, hconcat⟩
  · exact absurd (String.toList_eq_nil_iff.1 hnil) h.1
  · refine ⟨u, c, hconcat, h.2 c ?_⟩
    rw [hconcat]
    exact List.mem_append_right _ (List.mem_singleton_self c)

/-- No expression ends like something behind which an expression may begin. -/
theorem Legible.exists_concat {o : Outline} (h : o.Legible) :
    ∃ u c, o.chars = u ++ [c] ∧ c ≠ '(' ∧ c ≠ ' ' := by
  cases h with
  | leaf htext =>
      obtain ⟨u, c, hconcat, hc⟩ := exists_concat_of_isDotted htext
      refine ⟨u, c, by rw [chars, hconcat], ?_, ?_⟩ <;> rintro rfl <;> revert hc <;> decide
  | call => exact ⟨_, ')', chars_call .., by decide, by decide⟩
  | new => exact ⟨_, ')', chars_new .., by decide, by decide⟩

/-- A call without arguments does not end like one with arguments. -/
theorem Legible.append_listed_nil_ne {o : Outline} (h : o.Legible) (args : List Outline) :
    s ++ listed [] ≠ t ++ listed (args ++ [o]) := by
  intro heq
  obtain ⟨u, c, hconcat, hparen, -⟩ := h.exists_concat
  rw [listed_concat, hconcat] at heq
  have hlast := congrArg List.getLast? heq
  simp only [listed, charsAll, List.intercalate_nil, ← List.append_assoc, List.getLast?_concat,
    Option.some.injEq] at hlast
  exact hparen hlast.symm

/-- A text that ends in the arguments of a call does not end in other arguments. -/
theorem append_listed_inj {as bs : List Outline} (has : ∀ a ∈ as, a.Legible)
    (hbs : ∀ b ∈ bs, b.Legible) (hinj : ∀ a ∈ as, a.Determined)
    (h : s ++ listed as = t ++ listed bs) : s = t ∧ as = bs := by
  -- The last argument is the one that can be found, so both lists are taken apart from behind.
  induction as using List.reverseRecOn generalizing bs with
  | nil =>
      rcases List.eq_nil_or_concat' bs with rfl | ⟨bs, b, rfl⟩
      · exact ⟨List.append_cancel_right h, rfl⟩
      · exact absurd h ((hbs b (by simp)).append_listed_nil_ne bs)
  | append_singleton as a ih =>
      rcases List.eq_nil_or_concat' bs with rfl | ⟨bs, b, rfl⟩
      · exact absurd h.symm ((has a (by simp)).append_listed_nil_ne as)
      · rw [listed_concat, listed_concat, ← List.append_assoc, ← List.append_assoc] at h
        obtain ⟨hbefore, rfl⟩ := hinj a (by simp) b _ _ (hbs b (by simp))
          (leadsIn_append_before s as) (leadsIn_append_before t bs) h
        obtain ⟨rfl, rfl⟩ := ih (fun a' ha' => has a' (List.mem_append_left _ ha'))
          (fun b' hb' => hbs b' (List.mem_append_left _ hb'))
          (fun a' ha' => hinj a' (List.mem_append_left _ ha'))
          (append_listed_of_append_before hbefore)
        exact ⟨rfl, rfl⟩

/-- A call is told from what stands in front of the name, if that ends in a separator. -/
theorem append_name_inj {as bs : List Outline} {name name' : String} {c c' : Char}
    (hname : IsWord name) (hname' : IsWord name') (has : ∀ a ∈ as, a.Legible)
    (hbs : ∀ b ∈ bs, b.Legible) (hc : c ∈ separators) (hc' : c' ∈ separators)
    (hinj : ∀ a ∈ as, a.Determined)
    (h : s ++ [c] ++ name.toList ++ listed as ++ [')'] =
      t ++ [c'] ++ name'.toList ++ listed bs ++ [')']) :
    s = t ∧ c = c' ∧ name = name' ∧ as = bs := by
  obtain ⟨hfront, hargs⟩ := append_listed_inj has hbs hinj (List.append_cancel_right h)
  have hends : ∀ (u : List Char) {d : Char}, d ∈ separators →
      Ends (fun d => ¬ d ∉ separators) (u ++ [d]) := fun u d hd => ends_concat.2 (not_not.2 hd)
  obtain ⟨hseparator, hnames⟩ :=
    append_run_inj (hends s hc) (hends t hc') hname.2 hname'.2 hfront
  obtain ⟨hst, hcc⟩ := List.append_inj' hseparator rfl
  exact ⟨hst, List.singleton_inj.1 hcc, String.toList_inj.1 hnames, hargs⟩

/-- A leaf does not end in a parenthesis. -/
theorem append_toList_ne {text : String} (h : IsDotted text) : s ++ text.toList ≠ t ++ [')'] := by
  intro heq
  obtain ⟨u, c, hconcat, hc⟩ := exists_concat_of_isDotted h
  rw [hconcat, ← List.append_assoc] at heq
  obtain ⟨-, hparen⟩ := List.append_inj' heq rfl
  rw [List.singleton_inj.1 hparen] at hc
  revert hc
  decide

/-- The end of the text says of which form the expression is, and what its parts are. -/
theorem Legible.determined {a : Outline} (ha : a.Legible) : a.Determined := by
  -- Only the text of a leaf does not end in a parenthesis. Of two calls, the arguments and names
  -- are the same, and the separators in front of the names tell the two forms apart.
  induction ha with
  | leaf htext =>
      intro b s t hb hs ht h
      cases hb with
      | leaf htext' =>
          rw [chars, chars] at h
          obtain ⟨rfl, htexts⟩ := append_run_inj hs.ends_not_spelling ht.ends_not_spelling htext.2
            htext'.2 h
          rw [String.toList_inj.1 htexts]
          exact ⟨rfl, rfl⟩
      | call =>
          rw [chars, chars_call, ← List.append_assoc] at h
          exact absurd h (append_toList_ne htext)
      | new =>
          rw [chars, chars_new, ← List.append_assoc] at h
          exact absurd h (append_toList_ne htext)
  | call _ hmethod hargs ih ihargs =>
      intro b s t hb hs ht h
      rw [chars_call] at h
      cases hb with
      | leaf htext =>
          rw [chars, ← List.append_assoc] at h
          exact absurd h.symm (append_toList_ne htext)
      | call hreceiver hmethod' hargs' =>
          rw [chars_call] at h
          simp only [← List.append_assoc] at h
          obtain ⟨hfront, -, rfl, rfl⟩ := append_name_inj hmethod hmethod' hargs hargs' (by decide)
            (by decide) ihargs h
          obtain ⟨rfl, rfl⟩ := ih _ s t hreceiver hs ht hfront
          exact ⟨rfl, rfl⟩
      | new htype hargs' =>
          rw [chars_new] at h
          simp only [← List.append_assoc] at h
          obtain ⟨-, hdot, -, -⟩ := append_name_inj hmethod htype hargs hargs' (by decide)
            (by decide) ihargs h
          exact absurd hdot (by decide)
  | new htype hargs ihargs =>
      intro b s t hb hs ht h
      rw [chars_new] at h
      cases hb with
      | leaf htext =>
          rw [chars, ← List.append_assoc] at h
          exact absurd h.symm (append_toList_ne htext)
      | call _ hmethod hargs' =>
          rw [chars_call] at h
          simp only [← List.append_assoc] at h
          obtain ⟨-, hblank, -, -⟩ := append_name_inj htype hmethod hargs hargs' (by decide)
            (by decide) ihargs h
          exact absurd hblank (by decide)
      | new htype' hargs' =>
          rw [chars_new] at h
          simp only [← List.append_assoc] at h
          obtain ⟨hfront, -, rfl, rfl⟩ := append_name_inj htype htype' hargs hargs' (by decide)
            (by decide) ihargs h
          exact ⟨List.append_cancel_right hfront, rfl⟩

end Outline

/-- Expressions whose names are words print alike exactly if they have the same outline: the same
calls with the same texts of names, as many arguments in the same order, and leaves that print
alike. -/
theorem text_eq_iff_outline_eq (a b : Expr) (ha : a.Legible) (hb : b.Legible) :
    a.text = b.text ↔ a.outline = b.outline := by
  rw [← String.toList_inj, a.toList_text, b.toList_text]
  constructor
  · intro h
    have hstart : Outline.LeadsIn [] := fun c hc => absurd hc (by simp)
    exact (ha.outline.determined b.outline [] [] hb.outline hstart hstart h).2
  · intro h
    rw [h]

/-! ### Two expressions that print alike -/

/-- The expression `new Point(1.0).moveBy(offset, p)`, with names out of the given table. -/
def moveNewPoint (table : Nat) (offset p : Expr) : Expr :=
  .call (.new (.cls ⟨⟨table, "Point"⟩⟩) [.lit "1.0" .double]) ⟨table, "moveBy"⟩ [offset, p]

/-- The expression `new Point(1.0).moveBy(null, p)`. -/
def movedByNull : Expr := moveNewPoint 0 .null (.var ⟨0, "p"⟩ .int)

/-- The same in print, but with names out of another table, and with literals in the place of `null`
and of the variable. -/
def movedByLiteral : Expr := moveNewPoint 1 (.lit "null" .int) (.lit "p" .void)

theorem legible_moveNewPoint (table : Nat) {offset p : Expr} (hoffset : offset.Legible)
    (hp : p.Legible) : (moveNewPoint table offset p).Legible := by
  have hpoint : IsWord "Point" := isWord_of_all_isNameChar (by decide) rfl
  have hmoveBy : IsWord "moveBy" := isWord_of_all_isNameChar (by decide) rfl
  have hnumber : IsDotted "1.0" := isDotted_of_all_isNameChar (by decide) rfl
  refine .call (.new ?_ ?_) hmoveBy ?_
  · intro name hname
    rw [← Option.some.inj hname]
    exact hpoint
  · exact List.forall_mem_singleton.2 (.lit hnumber)
  · exact List.forall_mem_cons.2 ⟨hoffset, List.forall_mem_singleton.2 hp⟩

theorem outline_movedByNull :
    movedByNull.Legible ∧ movedByLiteral.Legible ∧ movedByNull ≠ movedByLiteral ∧
      movedByNull.text = "new Point(1.0).moveBy(null, p)" ∧
      movedByNull.outline = movedByLiteral.outline := by
  have hnull : IsWord "null" := isWord_of_all_isNameChar (by decide) rfl
  have hp : IsWord "p" := isWord_of_all_isNameChar (by decide) rfl
  have hleft : movedByNull.Legible := legible_moveNewPoint 0 .null (.var hp)
  have hright : movedByLiteral.Legible :=
    legible_moveNewPoint 1 (.lit hnull.isDotted) (.lit hp.isDotted)
  have htext : movedByNull.text = movedByLiteral.text := rfl
  refine ⟨hleft, hright, ?_, rfl, ?_⟩
  · simp [movedByNull, movedByLiteral, moveNewPoint]
  · exact (text_eq_iff_outline_eq movedByNull movedByLiteral hleft hright).1 htext

end Nominal
