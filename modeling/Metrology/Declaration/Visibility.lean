import Metrology.Declaration.Attribute

/-!
# Visibility

The word that exports an item, a field or a variant, perhaps with the place that it is exported to.
-/

namespace Metrology.Declaration

inductive Visibility where
  | inherited
  | exported
  | root (word : String)
  | within (isRooted : Bool) (path : List String)
  deriving DecidableEq, Repr

/-- Parentheses that name no place are left for the body. -/
def readVisibility :
    List Token → Except DeclarationError ((Visibility × List Delimiter) × List Token)
  | .identifier "pub" :: .group .parentheses content :: r =>
    match content with
    | .identifier "in" :: path => do
      let ((isRooted, names), surplus) ← readPath path
      return ((.within isRooted names, strays .parentheses surplus), r)
    | [.identifier name] =>
      if ["crate", "self", "super"].contains name then .ok ((.root name, []), r)
      else .ok ((.exported, []), .group .parentheses content :: r)
    | _ => .ok ((.exported, []), .group .parentheses content :: r)
  | .identifier "pub" :: r => .ok ((.exported, []), r)
  | ts => .ok ((.inherited, []), ts)

theorem readVisibility_length {ts r : List Token} {x : Visibility × List Delimiter}
    (h : readVisibility ts = .ok (x, r)) : r.length ≤ ts.length := by
  unfold readVisibility at h
  split at h
  · split at h
    · obtain ⟨⟨⟨isRooted, names⟩, surplus⟩, -, h⟩ := bind_eq_ok.1 h
      cases h
      simp only [List.length_cons]
      omega
    · split at h
      · cases h; simp only [List.length_cons]; omega
      · cases h; simp
    · cases h; simp
  · cases h; simp
  · cases h; exact Nat.le_refl _

end Metrology.Declaration
