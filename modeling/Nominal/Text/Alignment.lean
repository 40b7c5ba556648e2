/-!
# Aligned text

A text set into a field of a given width. Widths count characters. A text that is too long for the
field is left as it is, unless a precision cuts it first.
-/

namespace Nominal

/-- The side of its field a text stands at. -/
inductive Alignment where
  | left
  | right
  | center
  deriving DecidableEq, Repr

/-- How a text is set: cut to `precision` characters if one is given, then filled up with spaces to
`width` characters. -/
structure TextField where
  alignment : Alignment
  width : Nat
  precision : Option Nat := none

namespace TextField

/-- The spaces before and after a text that is `missing` characters too short. Of an odd number the
extra one follows a centred text. -/
def margins : Alignment → Nat → Nat × Nat
  | .left, missing => (0, missing)
  | .right, missing => (missing, 0)
  | .center, missing => (missing / 2, (missing + 1) / 2)

/-- The text as it stands in the field. -/
def set (f : TextField) (text : String) : String :=
  let kept := match f.precision with
    | some n => text.toList.take n
    | none => text.toList
  let (before, after) := margins f.alignment (f.width - kept.length)
  String.ofList (List.replicate before ' ' ++ kept ++ List.replicate after ' ')

end TextField
end Nominal
