import Mathlib.Data.List.TakeWhile
import RowExpr.Number.Decimal
import RowExpr.Proofs.Text.Numeral
import RowExpr.Proofs.Text.Quoted
import RowExpr.Unit.Assembly

/-!
Lines of a text.

Texts without line feeds that are joined by line feeds are the lines of what is made of them
(`Text.lines_join`). A unit leaves out lines that are blank. Lines of code are not blank, so they
all stand in the unit, each set in by the same number of blanks (`UnitParts.indent_join`,
`UnitParts.indent_ended`).
-/

namespace RowExpr

namespace Text

/-! ## Cutting and joining -/

/-- Lines are what stands between line feeds. -/
theorem lines_eq_splitOn (t : Text) : t.lines = t.splitOn lineFeed := by
  induction t with
  | nil => rfl
  | cons u rest ih =>
    rw [lines, List.splitOn_eq_splitOnP, List.splitOnP_cons_eq_if_modifyHead,
      ← List.splitOn_eq_splitOnP, ih]
    by_cases feed : u = lineFeed
    · rw [if_pos feed, if_pos (beq_iff_eq.2 feed)]
    · rw [if_neg feed, if_neg (mt beq_iff_eq.1 feed)]
      cases cut : List.splitOn lineFeed rest with
      | nil => exact absurd cut (List.splitOn_ne_nil _ _)
      | cons line more => rfl

theorem join_eq_intercalate (separator : Text) (ts : List Text) :
    join separator ts = separator.intercalate ts := by
  induction ts with
  | nil => rfl
  | cons t ts ih =>
    cases ts with
    | nil => simp [join]
    | cons next ts =>
      rw [List.intercalate_cons_cons, ← ih, join]
      exact List.cons_ne_nil _ _

/-- A text that holds no line feed. -/
def OneLine (t : Text) : Prop := lineFeed ∉ t

instance (t : Text) : Decidable t.OneLine := inferInstanceAs (Decidable (lineFeed ∉ t))

/-- A text that can stand on one line of a source. -/
def Unbroken (t : Text) : Prop := lineFeed ∉ t ∧ carriageReturn ∉ t

instance (t : Text) : Decidable t.Unbroken :=
  inferInstanceAs (Decidable (lineFeed ∉ t ∧ carriageReturn ∉ t))

theorem unbroken_cons {u : UInt16} {t : Text} :
    Unbroken (u :: t) ↔ (u ≠ lineFeed ∧ u ≠ carriageReturn) ∧ Unbroken t := by
  simp only [Unbroken, List.mem_cons, not_or, ne_comm]
  exact and_and_and_comm

/-- Lines that are joined by line feeds are found again. -/
theorem lines_join {ts : List Text} (one : ∀ t ∈ ts, OneLine t) (some : ts ≠ []) :
    (join [lineFeed] ts).lines = ts := by
  rw [lines_eq_splitOn, join_eq_intercalate]
  exact List.splitOn_intercalate lineFeed one some

/-- Texts that are each ended by a line feed are the texts joined, with an empty one at the
end. -/
theorem ended_eq_join (ts : List Text) :
    ts.flatMap (· ++ [lineFeed]) = join [lineFeed] (ts ++ [[]]) := by
  induction ts with
  | nil => rfl
  | cons t ts ih =>
    rw [List.flatMap_cons, ih]
    cases ts <;> rfl

/-- Ending each line by a line feed is joining them and ending the last. -/
theorem join_feed {ts : List Text} (some : ts ≠ []) :
    join [lineFeed] ts ++ [lineFeed] = ts.flatMap (· ++ [lineFeed]) := by
  induction ts with
  | nil => exact absurd rfl some
  | cons t ts ih =>
    cases ts with
    | nil => simp [join]
    | cons next ts =>
      rw [List.flatMap_cons, ← ih (List.cons_ne_nil _ _), join, List.append_assoc]
      exact List.cons_ne_nil _ _

/-- A text that ends with a line feed has an empty line after it. -/
theorem lines_ended {ts : List Text} (one : ∀ t ∈ ts, OneLine t) :
    lines (ts.flatMap (· ++ [lineFeed])) = ts ++ [[]] := by
  rw [ended_eq_join]
  refine lines_join (List.forall_mem_append.2 ⟨one, ?_⟩) (by simp)
  exact List.forall_mem_singleton.2 List.not_mem_nil

/-! ## Texts without line feeds -/

@[simp] theorem oneLine_nil : OneLine [] := List.not_mem_nil

@[simp] theorem oneLine_cons {u : UInt16} {t : Text} :
    OneLine (u :: t) ↔ u ≠ lineFeed ∧ OneLine t := by
  simp [OneLine, eq_comm]

@[simp] theorem oneLine_append {s t : Text} : OneLine (s ++ t) ↔ OneLine s ∧ OneLine t := by
  simp [OneLine]

/-- Leaving out units makes no line feed. -/
theorem OneLine.sublist {s t : Text} (one : t.OneLine) (part : s.Sublist t) : s.OneLine :=
  fun feed => one (part.subset feed)

/-- A text whose units all pass a test that a line feed does not pass. -/
theorem oneLine_of_all {t : Text} (test : UInt16 → Bool) (all : ∀ u ∈ t, test u = true)
    (refused : test lineFeed = false) : t.OneLine := by
  intro feed
  rw [all lineFeed feed] at refused
  cases refused

/-- A line feed is the unit of no other character, of none with two units either. -/
theorem lineFeed_not_mem_ofChar {c : Char} (other : c ≠ '\n') : lineFeed ∉ ofChar c := by
  have bound : c.toNat < 0xD800 ∨ 0xDFFF < c.toNat ∧ c.toNat < 0x110000 := c.valid
  unfold ofChar
  split
  · next small =>
    intro feed
    have same := congrArg UInt16.toNat (List.mem_singleton.1 feed)
    rw [UInt16.toNat_ofNat', Nat.mod_eq_of_lt small] at same
    exact other (Char.toNat_inj.1 same.symm)
  · next large =>
    intro feed
    simp only [List.mem_cons, List.not_mem_nil, or_false] at feed
    -- Both units of a pair are surrogates, far above a line feed.
    rcases feed with feed | feed
    all_goals
      have same := congrArg UInt16.toNat feed
      rw [UInt16.toNat_ofNat', show lineFeed.toNat = 10 from rfl] at same
      omega

/-- A text without the character has no line feed. -/
@[simp] theorem oneLine_ofString {s : String} (plain : '\n' ∉ s.toList) :
    (ofString s).OneLine := by
  intro feed
  obtain ⟨c, listed, written⟩ := List.mem_flatMap.1 feed
  exact lineFeed_not_mem_ofChar (fun same => plain (same ▸ listed)) written

@[simp] theorem oneLine_ofNat (n : Nat) : (ofNat n).OneLine :=
  oneLine_of_all isDigit (fun _ written => isDigit_of_mem_ofNat written) rfl

@[simp] theorem oneLine_replicate_zeroDigit (n : Nat) : OneLine (List.replicate n zeroDigit) :=
  oneLine_of_all isDigit (fun _ written => (List.eq_of_mem_replicate written) ▸ rfl) rfl

/-- Quoting escapes line feeds, so a quoted text is one line. -/
@[simp] theorem oneLine_quoted (t : Text) : t.quoted.OneLine :=
  fun feed => absurd ((isLiteralOf_quoted t).visible lineFeed feed) (by decide)

/-- Single quotes add backslashes and nothing else. -/
theorem OneLine.singleQuoted {t : Text} (one : t.OneLine) : t.singleQuoted.OneLine := by
  have body : OneLine (escapeSingle t) := by
    intro feed
    obtain ⟨u, listed, written⟩ := List.mem_flatMap.1 feed
    split at written
    · rcases List.mem_cons.1 written with mark | same
      · exact absurd mark (by decide)
      · exact one (List.mem_singleton.1 same ▸ listed)
    · exact one (List.mem_singleton.1 written ▸ listed)
  simpa [Text.singleQuoted, body] using (by decide : singleQuote ≠ lineFeed)

theorem oneLine_join {separator : Text} {ts : List Text} (between : separator.OneLine)
    (one : ∀ t ∈ ts, t.OneLine) : (join separator ts).OneLine := by
  fun_induction join separator ts with
  | case1 => exact oneLine_nil
  | case2 t => exact one t List.mem_cons_self
  | case3 t ts _ ih =>
    obtain ⟨first, rest⟩ := List.forall_mem_cons.1 one
    exact oneLine_append.2 ⟨oneLine_append.2 ⟨first, between⟩, ih rest⟩

end Text

theorem Decimal.oneLine_layout (d : Decimal) : d.layout.OneLine := by
  have part (n : Nat) : Text.OneLine ((Text.ofNat d.digits).take n) ∧
      Text.OneLine ((Text.ofNat d.digits).drop n) :=
    ⟨(Text.oneLine_ofNat _).sublist (List.take_sublist _ _),
      (Text.oneLine_ofNat _).sublist (List.drop_sublist _ _)⟩
  dsimp only [Decimal.layout]
  split
  · split <;> split <;> simp +decide [part, -List.drop_one]
  · split
    · simp
    · split <;> simp +decide [part]

theorem Double.oneLine_text (x : Double) : x.text.OneLine := by
  unfold Double.text
  split
  · decide
  · decide
  · decide
  · split
    · decide
    · split <;> simp +decide [Decimal.oneLine_layout]

/-! ## Lines of code -/

/-- Trimming leaves nothing of a blank text only. -/
theorem Text.trim_eq_nil_iff {t : Text} : t.trim = [] ↔ ∀ u ∈ t, Text.isBlank u = true := by
  rw [Text.trim, List.reverse_eq_nil_iff, List.dropWhile_eq_nil_iff]
  constructor
  · intro blank u listed
    rw [← List.takeWhile_append_dropWhile (p := Text.isBlank) (l := t), List.mem_append] at listed
    rcases listed with front | rest
    · exact List.mem_takeWhile_imp front
    · exact blank u (List.mem_reverse.2 rest)
  · intro blank u listed
    exact blank u ((List.dropWhile_sublist _).subset (List.mem_reverse.1 listed))

/-- A text that is one line, and not a blank one. -/
structure Text.IsLine (t : Text) : Prop where
  one : t.OneLine
  written : ∃ u ∈ t, Text.isBlank u = false

theorem Text.IsLine.trim_ne_nil {t : Text} (line : t.IsLine) : t.trim ≠ [] := by
  intro blank
  obtain ⟨u, listed, black⟩ := line.written
  rw [Text.trim_eq_nil_iff.1 blank u listed] at black
  cases black

/-- Lines set in by a number of blanks. -/
def Text.setIn (blanks : Nat) (lines : List Text) : List Text :=
  lines.map (List.replicate blanks 32 ++ ·)

section Indent

variable {lines : List Text} (code : ∀ line ∈ lines, Text.IsLine line) (spaces : Nat)

include code

/-- No line that is not blank is dropped. -/
theorem Text.filter_trim : lines.filter (fun line => line.trim ≠ []) = lines :=
  List.filter_eq_self.2 fun line listed => decide_eq_true (code line listed).trim_ne_nil

/-- Texts that are lines are set in as they are, joined or each ended by a line feed. -/
theorem UnitParts.indent_join :
    UnitParts.indent spaces (Text.join [Text.lineFeed] lines) = Text.setIn spaces lines := by
  unfold UnitParts.indent
  rcases lines with _ | ⟨line, lines⟩
  · rfl
  · rw [Text.lines_join (fun line listed => (code line listed).one) (List.cons_ne_nil _ _),
      Text.filter_trim code]
    rfl

/-- Indentation sets in every line and drops the empty one at the end. -/
theorem UnitParts.indent_ended :
    UnitParts.indent spaces (lines.flatMap (· ++ [Text.lineFeed])) = Text.setIn spaces lines := by
  unfold UnitParts.indent
  rw [Text.lines_ended fun line listed => (code line listed).one, List.filter_append,
    Text.filter_trim code]
  simp [Text.trim, Text.setIn]

end Indent

end RowExpr
