import RowExpr.Calendar.Offsets
import RowExpr.Proofs.Source
import RowExpr.Proofs.Text.Quoted

/-!
Texts between single quotes.

Two replacements, one after the other, make a text fit to stand between single quotes
(`Text.escapeSingle_eq_replaceAll`): the second does not touch what the first has written. No
quote in the result counts (`Text.closed_escapeSingle`), and every reader that follows the rules
of such literals gives the text back (`Text.SingleRules.read_escapeSingle`). So texts without line
ends can be read back, and so can every zone that options accept
(`Text.single_quoting_reversible`).
-/

namespace RowExpr

namespace Text

/-! ## Escaping -/

/-- The text with another in place of every unit `u`. -/
def replaceAll (u : UInt16) (written : Text) (t : Text) : Text :=
  t.flatMap fun v => if v = u then written else [v]

section Escaping

variable {u : UInt16}

theorem escapeSingle_special (special : u = backslash ∨ u = singleQuote) (t : Text) :
    escapeSingle (u :: t) = [backslash, u] ++ escapeSingle t := by
  simp [escapeSingle, special]

theorem escapeSingle_plain (plain : ¬ (u = backslash ∨ u = singleQuote)) (t : Text) :
    escapeSingle (u :: t) = [u] ++ escapeSingle t := by
  simp [escapeSingle, plain]

/-- Backslashes are doubled first. The backslashes that are then put before quotes are not
doubled again. -/
theorem escapeSingle_eq_replaceAll (t : Text) :
    escapeSingle t = replaceAll singleQuote [backslash, singleQuote]
      (replaceAll backslash [backslash, backslash] t) := by
  unfold escapeSingle replaceAll
  rw [List.flatMap_assoc]
  congr 1
  funext u
  by_cases escape : u = backslash
  · subst escape
    rfl
  · by_cases quote : u = singleQuote
    · subst quote
      rfl
    · simp [escape, quote]

/-- No quote in an escaped text ends the literal, whatever the text is. -/
theorem closed_escapeSingle (t : Text) : Closed singleQuote (escapeSingle t) := by
  induction t with
  | nil => exact closed_nil
  | cons u t ih =>
    by_cases special : u = backslash ∨ u = singleQuote
    · rw [escapeSingle_special special]
      exact (closed_letter (by decide) u).append ih
    · rw [escapeSingle_plain special]
      obtain ⟨noEscape, noQuote⟩ := not_or.1 special
      exact (closed_unit noQuote noEscape).append ih

end Escaping

/-! ## Reading -/

/-- The rules for what stands after an opening single quote. A single quote ends the literal, a
backslash in front of a backslash or of a single quote stands for that unit, and any other unit
that ends no line stands for itself. What other escapes stand for is left open. -/
structure SingleRules (read : Text → Option (Text × Text)) : Prop where
  ends : ∀ rest, read (singleQuote :: rest) = some ([], rest)
  escape : ∀ u rest, u = backslash ∨ u = singleQuote →
    read ([backslash, u] ++ rest) = (read rest).map fun p => (u :: p.1, p.2)
  unit : ∀ u rest, u ≠ singleQuote → u ≠ backslash → u ≠ lineFeed → u ≠ carriageReturn →
    read ([u] ++ rest) = (read rest).map fun p => (u :: p.1, p.2)

theorem SingleRules.read_escapeSingle {read : Text → Option (Text × Text)}
    (rules : SingleRules read) {t : Text} (unbroken : t.Unbroken) (rest : Text) :
    read (escapeSingle t ++ singleQuote :: rest) = some (t, rest) := by
  induction t with
  | nil => exact rules.ends rest
  | cons u t ih =>
    obtain ⟨⟨noFeed, noReturn⟩, below⟩ := unbroken_cons.1 unbroken
    by_cases special : u = backslash ∨ u = singleQuote
    · rw [escapeSingle_special special, List.append_assoc, rules.escape u _ special, ih below]
      rfl
    · obtain ⟨noEscape, noQuote⟩ := not_or.1 special
      rw [escapeSingle_plain special, List.append_assoc,
        rules.unit u _ noQuote noEscape noFeed noReturn, ih below]
      rfl

/-- The reader of unit text follows the rules. -/
theorem singleRules_unquote? : SingleRules (unquote? singleQuote) where
  ends := unquote?_quote
  escape := by
    intro u rest special
    rcases special with rfl | rfl
    · exact unquote?_letter (.inr rfl) (by decide) (by decide) (by decide) rest
    · exact unquote?_letter (.inr rfl) (by decide) (by decide) (by decide) rest
  unit := fun _ rest noQuote noEscape noFeed noReturn =>
    unquote?_unit noQuote noEscape noFeed noReturn rest

/-- A token between single quotes that stands for a text. It has no quote between the two that is
not escaped, every reader that follows the rules gets the text from it, whatever follows, and so
does the reader of unit text. -/
structure IsSingleLiteralOf (token t : Text) : Prop where
  enclosed : ∃ body, token = singleQuote :: (body ++ [singleQuote]) ∧ Closed singleQuote body ∧
    ∀ read, SingleRules read → ∀ rest, read (body ++ singleQuote :: rest) = some (t, rest)
  reads : ∀ rest, Token.first? (token ++ rest) = some (.text t, rest)

theorem isSingleLiteralOf_singleQuoted {t : Text} (unbroken : t.Unbroken) :
    t.singleQuoted.IsSingleLiteralOf t := by
  refine ⟨⟨escapeSingle t, rfl, closed_escapeSingle t,
    fun read rules => rules.read_escapeSingle unbroken⟩, ?_⟩
  intro rest
  have read := singleRules_unquote?.read_escapeSingle unbroken rest
  rw [singleQuoted, List.cons_append, List.append_assoc, List.singleton_append, Token.first?,
    if_neg (by decide), if_neg (by decide), if_pos (.inr rfl), read]
  rfl

theorem singleQuoted_injective {s t : Text} (first : s.Unbroken) (second : t.Unbroken)
    (same : s.singleQuoted = t.singleQuoted) : s = t := by
  have readFirst := (isSingleLiteralOf_singleQuoted first).reads []
  have readSecond := (isSingleLiteralOf_singleQuoted second).reads []
  rw [same, readSecond] at readFirst
  cases readFirst
  rfl

end Text

/-! ## Zones -/

/-- A zone setting tells the formatter and the zone. -/
theorem Init.setZone_eq_of_text {zone zone' : Text} (first : zone.Unbroken)
    (second : zone'.Unbroken) {k k' : FormatterKind}
    (same : (Init.setZone k).text zone = (Init.setZone k').text zone') :
    k = k' ∧ zone = zone' := by
  obtain rfl := Init.text_setZone_injective same
  refine ⟨rfl, Text.singleQuoted_injective first second ?_⟩
  exact List.append_cancel_left (List.append_cancel_right same)

/-- Between single quotes stands a text with its backslashes doubled and then a backslash put
before every single quote. If the text has no line feed and no carriage return, as no zone that
options accept has, this is a literal of the text. Zone settings of different such texts are
therefore different. -/
theorem Text.single_quoting_reversible [TimeZones] :
    (∀ value : Text, value.singleQuoted = Text.singleQuote ::
      (Text.replaceAll Text.singleQuote [Text.backslash, Text.singleQuote]
        (Text.replaceAll Text.backslash [Text.backslash, Text.backslash] value) ++
          [Text.singleQuote])) ∧
    (∀ value : Text, value.Unbroken → value.singleQuoted.IsSingleLiteralOf value) ∧
    (∀ zone : Text, TimeZones.accepts zone = true → zone.Unbroken) ∧
    ∀ zone zone' : Text, zone.Unbroken → zone'.Unbroken → zone ≠ zone' →
      ∀ k k', (Init.setZone k).text zone ≠ (Init.setZone k').text zone' := by
  refine ⟨?_, fun value => Text.isSingleLiteralOf_singleQuoted,
    fun zone => TimeZones.unbroken_of_accepts, ?_⟩
  · intro value
    rw [Text.singleQuoted, Text.escapeSingle_eq_replaceAll]
  · intro zone zone' first second apart k k' same
    exact apart (Init.setZone_eq_of_text first second same).2

/-- A backslash in front of a quote, and two backslashes at the end. -/
def Text.slashed : Text := [Text.backslash, Text.singleQuote, Text.backslash, Text.backslash]

section Host

open scoped Offsets

theorem Text.single_quoting_reversible_slashed :
    Text.slashed.Unbroken ∧ Text.slashed.singleQuoted = ("'\\\\\\'\\\\\\\\'" : Text) ∧
    Text.slashed.singleQuoted.IsSingleLiteralOf Text.slashed ∧
    TimeZones.accepts "Etc/UTC" = true ∧ Text.Unbroken "Etc/UTC" ∧
    ∀ k k', (Init.setZone k).text Text.slashed ≠ (Init.setZone k').text "Etc/UTC" := by
  obtain ⟨-, literal, zones, apart⟩ := Text.single_quoting_reversible
  have slashed : Text.slashed.Unbroken := by decide
  have accepted : TimeZones.accepts "Etc/UTC" = true := by decide
  have zone := zones _ accepted
  exact ⟨slashed, by
    decide, literal _ slashed, accepted, zone, apart _ _ slashed zone (by decide)⟩

end Host

end RowExpr
