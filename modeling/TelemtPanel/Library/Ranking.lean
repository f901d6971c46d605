import Mathlib

/-!
# Comparison of ranks

A three-way comparison that looks at one component after another is the comparison of ranks in an
order that is put together from sums, products and lists, all of them lexicographic.
-/

namespace TelemtPanel.Library

universe u v

instance linearOrderUInt8 : LinearOrder UInt8 where
  le_refl := UInt8.le_refl
  le_trans _ _ _ := UInt8.le_trans
  le_antisymm _ _ := UInt8.le_antisymm
  le_total := UInt8.le_total
  lt_iff_le_not_ge a b := by
    rw [UInt8.le_iff_toNat_le, UInt8.le_iff_toNat_le, UInt8.lt_iff_toNat_lt]
    omega
  toDecidableLE := inferInstance
  toDecidableLT := inferInstance
  toDecidableEq := inferInstance

variable {α : Type u} {β : Type v} [LinearOrder α] [LinearOrder β]

/-- Comparison of two ranks, by the order of `α` also where it has others. -/
def ranked (a b : α) : Ordering := cmp a b

theorem ranked_lt_iff {a b : α} : ranked a b = .lt ↔ a < b := cmp_eq_lt_iff a b
theorem ranked_eq_iff {a b : α} : ranked a b = .eq ↔ a = b := cmp_eq_eq_iff a b
theorem ranked_gt_iff {a b : α} : ranked a b = .gt ↔ b < a := cmp_eq_gt_iff a b

@[simp]
theorem ranked_self (a : α) : ranked a a = .eq := ranked_eq_iff.mpr rfl

theorem ranked_swap (a b : α) : (ranked a b).swap = ranked b a := cmp_swap a b

theorem ranked_isLE_iff {a b : α} : (ranked a b).isLE = true ↔ a ≤ b := by
  rw [← not_lt, ← ranked_gt_iff]
  cases ranked a b with
  | lt => simp
  | eq => simp
  | gt => simp

/-- A monotone embedding keeps the comparison. -/
theorem ranked_map {f : α → β} (mono : StrictMono f) (a b : α) :
    ranked (f a) (f b) = ranked a b :=
  mono.cmp_map_eq a b

theorem ranked_prod (a b : α) (c d : β) :
    ranked (toLex (a, c)) (toLex (b, d)) = (ranked a b).then (ranked c d) := by
  cases first : ranked a b with
  | lt => exact ranked_lt_iff.mpr (Prod.Lex.toLex_lt_toLex.mpr (Or.inl (ranked_lt_iff.mp first)))
  | eq =>
      rw [ranked_eq_iff] at first
      subst first
      cases second : ranked c d with
      | lt =>
          have smaller := ranked_lt_iff.mp second
          exact ranked_lt_iff.mpr (Prod.Lex.toLex_lt_toLex.mpr (Or.inr ⟨rfl, smaller⟩))
      | eq => rw [ranked_eq_iff.mp second, ranked_self]; rfl
      | gt =>
          have greater := ranked_gt_iff.mp second
          exact ranked_gt_iff.mpr (Prod.Lex.toLex_lt_toLex.mpr (Or.inr ⟨rfl, greater⟩))
  | gt => exact ranked_gt_iff.mpr (Prod.Lex.toLex_lt_toLex.mpr (Or.inl (ranked_gt_iff.mp first)))

theorem ranked_inl (a b : α) :
    ranked (toLex (Sum.inl a : α ⊕ β)) (toLex (Sum.inl b)) = ranked a b :=
  ranked_map Sum.Lex.inl_strictMono a b

theorem ranked_inr (a b : β) :
    ranked (toLex (Sum.inr a : α ⊕ β)) (toLex (Sum.inr b)) = ranked a b :=
  ranked_map Sum.Lex.inr_strictMono a b

theorem ranked_inl_inr (a : α) (b : β) :
    ranked (toLex (Sum.inl a : α ⊕ β)) (toLex (Sum.inr b)) = .lt :=
  ranked_lt_iff.mpr (Sum.Lex.inl_lt_inr a b)

theorem ranked_inr_inl (a : α) (b : β) :
    ranked (toLex (Sum.inr b : α ⊕ β)) (toLex (Sum.inl a)) = .gt :=
  ranked_gt_iff.mpr (Sum.Lex.inl_lt_inr a b)

theorem ranked_nil_cons (a : α) (rest : List α) : ranked [] (a :: rest) = .lt :=
  ranked_lt_iff.mpr List.Lex.nil

theorem ranked_cons_nil (a : α) (rest : List α) : ranked (a :: rest) [] = .gt :=
  ranked_gt_iff.mpr List.Lex.nil

theorem ranked_cons (a b : α) (as bs : List α) :
    ranked (a :: as) (b :: bs) = (ranked a b).then (ranked as bs) := by
  cases first : ranked a b with
  | lt => exact ranked_lt_iff.mpr (List.Lex.rel (ranked_lt_iff.mp first))
  | eq =>
      rw [ranked_eq_iff] at first
      subst first
      cases second : ranked as bs with
      | lt => exact ranked_lt_iff.mpr (List.Lex.cons (ranked_lt_iff.mp second))
      | eq => rw [ranked_eq_iff.mp second, ranked_self]; rfl
      | gt => exact ranked_gt_iff.mpr (List.Lex.cons (ranked_gt_iff.mp second))
  | gt => exact ranked_gt_iff.mpr (List.Lex.rel (ranked_gt_iff.mp first))

theorem ranked_coe_bot (a b : α) : ranked (a : WithBot α) (b : WithBot α) = ranked a b :=
  ranked_map WithBot.coe_strictMono a b

theorem ranked_coe_top (a b : α) : ranked (a : WithTop α) (b : WithTop α) = ranked a b :=
  ranked_map WithTop.coe_strictMono a b

end TelemtPanel.Library
