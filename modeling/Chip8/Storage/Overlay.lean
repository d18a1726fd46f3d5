/-!
# Overlays

`overlay v start xs` is the row `v` with the items of `xs` laid over it from position
`start` on. Items that would come to lie behind the end are dropped; callers that must
refuse such a write check the bound first. `getElem_overlay` says what lies where
afterwards, and its two corollaries that nothing outside the overlay has moved.
-/

namespace Chip8

variable {α : Type} {n : Nat}

/-- The row `v` with `xs` laid over it from position `start` on. -/
def overlay (v : Vector α n) (start : Nat) : List α → Vector α n
  | [] => v
  | x :: xs => overlay (v.setIfInBounds start x) (start + 1) xs

@[simp] theorem overlay_nil (v : Vector α n) (start : Nat) : overlay v start [] = v := rfl

/-- Under the overlay lies the item at that distance from its start, and everywhere else
what was there before. -/
theorem getElem_overlay (v : Vector α n) (start : Nat) (xs : List α) {i : Nat} (hi : i < n) :
    (overlay v start xs)[i] =
      if h : start ≤ i ∧ i - start < xs.length then xs[i - start] else v[i] := by
  induction xs generalizing v start with
  | nil => simp
  | cons x xs ih =>
    rw [overlay, ih, Vector.getElem_setIfInBounds hi]
    by_cases hlt : i < start
    · simp [show ¬start + 1 ≤ i by omega, show ¬start ≤ i by omega,
        show start ≠ i by omega]
    by_cases heq : start = i
    · subst heq
      simp [show ¬start + 1 ≤ start by omega]
    · have hsub : i - start = i - (start + 1) + 1 := by omega
      by_cases hin : i - (start + 1) < xs.length
      · simp [hsub, hin, show start + 1 ≤ i by omega, show start ≤ i by omega]
      · simp [hsub, hin, heq]

/-- An overlay does not reach below its start. -/
theorem getElem_overlay_of_lt (v : Vector α n) {start : Nat} (xs : List α) {i : Nat}
    (hi : i < n) (h : i < start) : (overlay v start xs)[i] = v[i] := by
  rw [getElem_overlay]
  simp [show ¬start ≤ i by omega]

/-- An overlay does not reach past its end. -/
theorem getElem_overlay_of_ge (v : Vector α n) {start : Nat} (xs : List α) {i : Nat}
    (hi : i < n) (h : start + xs.length ≤ i) : (overlay v start xs)[i] = v[i] := by
  rw [getElem_overlay]
  simp [show ¬i - start < xs.length by omega]

end Chip8
