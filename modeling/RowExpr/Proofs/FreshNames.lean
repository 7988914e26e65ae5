import Mathlib.Data.List.Range
import RowExpr.Proofs.Code.Identifier

/-!
Names that a supply gives.

A supply numbers its names one after the other, so names that were asked for in a row have the
stems that were asked for and the next numbers (`NameSupply.freshAll_eq`). Their texts never
repeat, even if a stem has dollar signs and digits of its own or is the text of an earlier name
(`NameSupply.fresh_never_repeats`).
-/

namespace RowExpr

section Supply

variable (s : NameSupply) (stems : List Text)

/-- Names asked for in a row are the stems in their order, numbered from where the supply
stands. -/
theorem NameSupply.freshAll_eq :
    (s.freshAll stems).1 = (stems.zipIdx s.taken).map fun p => .fresh p.1 p.2 := by
  induction stems generalizing s with
  | nil => rfl
  | cons stem stems ih => exact congrArg (Name.fresh stem s.taken :: ·) (ih ⟨s.taken + 1⟩)

theorem NameSupply.taken_freshAll : (s.freshAll stems).2.taken = s.taken + stems.length := by
  induction stems generalizing s with
  | nil => rfl
  | cons stem stems ih =>
    have rest : ((NameSupply.mk (s.taken + 1)).freshAll stems).2.taken =
      s.taken + 1 + stems.length := ih _
    rw [List.length_cons, Nat.add_comm stems.length, ← Nat.add_assoc]
    exact rest

/-- Texts of names that are asked for in a row differ, since their numbers do. -/
theorem NameSupply.texts_nodup : ((s.freshAll stems).1.map Name.text).Nodup := by
  have numbers : ((stems.zipIdx s.taken).map Prod.snd).Nodup := by
    rw [List.zipIdx_map_snd]
    exact List.nodup_range'
  rw [s.freshAll_eq, List.map_map, List.Nodup, List.pairwise_map]
  refine (List.pairwise_map.1 numbers).imp fun apart same => apart ?_
  exact (Name.fresh.inj (Name.fresh_text_injective same)).2

end Supply

/-- Names asked for one after the other from a new supply, with any stems, are the stems in their
order, each with a dollar sign and the number of names that were given before it. No two of them
have the same text, and the supply has then counted as many names as were asked for. -/
theorem NameSupply.fresh_never_repeats (stems : List Text) :
    (NameSupply.full.freshAll stems).1.map Name.text =
      stems.zipIdx.map (fun p => p.1 ++ "$" ++ Text.ofNat p.2) ∧
    ((NameSupply.full.freshAll stems).1.map Name.text).Nodup ∧
    (NameSupply.full.freshAll stems).2.taken = stems.length := by
  refine ⟨?_, NameSupply.texts_nodup _ stems, ?_⟩
  · rw [NameSupply.freshAll_eq, List.map_map]
    rfl
  · rw [NameSupply.taken_freshAll]
    exact Nat.zero_add _

/-- A stem that is the text of an earlier name, and a stem with a dollar sign at its end. -/
example : (NameSupply.full.freshAll ["x", "x$0", "", "x$"]).1.map Name.text =
    [("x$0" : Text), ("x$0$1" : Text), ("$2" : Text), ("x$$3" : Text)] := by decide +kernel

end RowExpr
