import Mathlib.Data.List.TakeWhile
import RowExpr.Text.Blank

/-!
Runs of units at the ends of a text.

Units of a kind are taken off the beginning of a text up to the first unit of another kind
(`Text.takeWhile_run`, `Text.dropWhile_run`). Trimming does this with white space at both ends:
a text is what trimming leaves with white space around it (`Text.exists_frame`), and trimming
leaves whatever begins and ends with something else (`Text.trim_frame`).
-/

namespace RowExpr

/-- The text does not begin with a unit of a kind. -/
def Text.Stops (p : UInt16 → Bool) (t : Text) : Prop := ∀ u ∈ t.head?, p u = false

section Runs

variable {p : UInt16 → Bool} {run rest : Text}

theorem Text.stops_nil (p : UInt16 → Bool) : Text.Stops p [] := nofun

theorem Text.stops_cons {u : UInt16} : Text.Stops p (u :: rest) ↔ p u = false :=
  ⟨fun stops => stops u rfl, fun other _ same => Option.some.inj same ▸ other⟩

/-- A run is taken up to the first unit of another kind, and no further. -/
theorem Text.takeWhile_run (all : ∀ u ∈ run, p u = true) (stops : Text.Stops p rest) :
    (run ++ rest).takeWhile p = run := by
  rw [List.takeWhile_append_of_pos all]
  cases rest with
  | nil => exact List.append_nil run
  | cons u rest =>
    rw [List.takeWhile_cons_of_neg (ne_true_of_eq_false (Text.stops_cons.1 stops)),
      List.append_nil]

theorem Text.dropWhile_run (all : ∀ u ∈ run, p u = true) (stops : Text.Stops p rest) :
    (run ++ rest).dropWhile p = rest := by
  rw [List.dropWhile_append_of_pos all]
  cases rest with
  | nil => rfl
  | cons u rest => rw [List.dropWhile_cons_of_neg (ne_true_of_eq_false (Text.stops_cons.1 stops))]

/-- The text begins, and with a unit of another kind: a run in front of it ends there. -/
structure Text.Cuts (p : UInt16 → Bool) (t : Text) : Prop where
  some : t ≠ []
  stops : Text.Stops p t

theorem Text.cuts_cons {u : UInt16} (other : p u = false) : Text.Cuts p (u :: rest) :=
  ⟨List.cons_ne_nil u rest, Text.stops_cons.2 other⟩

/-- A text in front of another begins the two together. -/
theorem Text.Stops.append (stops : Text.Stops p run) (some : run ≠ []) (rest : Text) :
    Text.Stops p (run ++ rest) := by
  cases run with
  | nil => exact absurd rfl some
  | cons u run => exact Text.stops_cons.2 (Text.stops_cons.1 stops)

/-- What begins a text begins it together with what follows. -/
theorem Text.Cuts.append (cuts : Text.Cuts p run) (rest : Text) : Text.Cuts p (run ++ rest) :=
  ⟨List.append_ne_nil_of_left_ne_nil cuts.some rest, cuts.stops.append cuts.some rest⟩

end Runs

/-! ## White space -/

/-- From the exclamation mark up to the last control character, no unit is white space. -/
theorem Text.isBlank_of_visible {u : UInt16} (low : 32 < u.toNat) (high : u.toNat < 160) :
    Text.isBlank u = false := by
  simp only [Text.isBlank, Bool.or_eq_false_iff, Bool.and_eq_false_iff, decide_eq_false_iff_not,
    beq_eq_false_iff_ne, UInt16.le_iff_toNat_le, ne_eq, ← UInt16.toNat_inj, UInt16.reduceToNat]
  omega

/-- Nothing but white space. -/
def Text.AllBlank (t : Text) : Prop := ∀ u ∈ t, isBlank u = true

/-- A text is what trimming leaves, with white space around it. -/
theorem Text.exists_frame (t : Text) :
    ∃ front back : Text, t = front ++ t.trim ++ back ∧ front.AllBlank ∧ back.AllBlank := by
  refine ⟨t.takeWhile isBlank,
    ((t.dropWhile isBlank).reverse.takeWhile isBlank).reverse, ?_, ?_, ?_⟩
  · rw [trim, List.append_assoc, ← List.reverse_append, List.takeWhile_append_dropWhile,
      List.reverse_reverse, List.takeWhile_append_dropWhile]
  · exact fun u listed => List.mem_takeWhile_imp listed
  · exact fun u listed => List.mem_takeWhile_imp (List.mem_reverse.1 listed)

/-- Trimming takes white space off both ends, and nothing else. -/
theorem Text.trim_frame {front body back : Text} (blankFront : front.AllBlank)
    (blankBack : back.AllBlank) (some : body ≠ []) (begins : Text.Stops isBlank body)
    (ends : Text.Stops isBlank body.reverse) : (front ++ body ++ back).trim = body := by
  have turned : (back.reverse ++ body.reverse).dropWhile isBlank = body.reverse :=
    dropWhile_run (fun u listed => blankBack u (List.mem_reverse.1 listed)) ends
  rw [trim, List.append_assoc, dropWhile_run blankFront (begins.append some back),
    List.reverse_append, turned, List.reverse_reverse]

end RowExpr
