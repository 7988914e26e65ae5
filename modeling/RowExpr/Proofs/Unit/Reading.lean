import RowExpr.Proofs.Unit.Cutting
import RowExpr.Unit.Reader

/-!
Reading legible code from its tokens.

A term that binds with rank `p` is read by the level of that rank, in front of any token that
binds less (`Reading.LevelAt`). The operands on the left of one level are read in one go: after
them the loop of the level goes on with what has been read so far (`Reading.SpineAt`). From this
the tokens of every legible term are read as the term that they speak (`Term.readsBack`), and so
are the tokens of blocks (`Block.reads_tokens`) and of whole units (`GeneratedUnit.items_tokens`).
The fuel that the reader has is 16 times the number of tokens; each token costs less.
-/

namespace RowExpr

namespace Reading

/-! ## Steps -/

section Steps

variable {α β : Type} {ts us rest : List Token}

/-- The second reader goes on where the first has stopped. -/
theorem bind_some {m : Reading α} {f : α → Reading β} {a : α} {result : Option (β × List Token)}
    (first : m ts = some (a, us)) (second : f a us = result) : (m >>= f) ts = result := by
  show (m ts >>= fun p => f p.1 p.2) = result
  rw [first]
  exact second

/-- A token that is not the one asked for is left in place. -/
theorem accept_other {t token : Token} (other : t ≠ token) :
    accept token (t :: rest) = some (false, t :: rest) := if_neg other

end Steps

/-! ## Ranks -/

/-- The marks that end a term. -/
def stops : List String := [";", ")", "]", ",", ":"]

/-- The tokens that join parts of a term, each with the rank at which it binds. -/
inductive Joins : Token → Nat → Prop
  | ascription : Joins (.word "as") 0
  | test : Joins (.mark "?") 1
  | operator (op : InfixOperator) : Joins (.mark op.symbol) op.rank

/-- What follows does not go on with a term of rank `p`: it begins with a mark that ends a term,
or with a token that binds less. -/
inductive Stop (p : Nat) : List Token → Prop
  | ends {m : String} {rest : List Token} : m ∈ stops → Stop p (.mark m :: rest)
  | joins {token : Token} {k : Nat} {rest : List Token} : Joins token k → k < p →
    Stop p (token :: rest)

/-- What does not go on with a term of one rank does not go on with one that binds tighter. -/
theorem Stop.mono {p q : Nat} {rest : List Token} (stop : Stop p rest) (le : p ≤ q) :
    Stop q rest := by
  cases stop with
  | ends listed => exact .ends listed
  | joins binds less => exact .joins binds (Nat.lt_of_lt_of_le less le)

/-- Every operator stands on one of the levels of the reader. -/
theorem mem_levels (op : InfixOperator) : op ∈ levels.flatten := by
  cases op <;> decide

/-- An operator is known by its symbol, across all levels. -/
theorem symbol_injective {op op' : InfixOperator} (same : op.symbol = op'.symbol) : op = op' := by
  have all : ∀ op ∈ levels.flatten, ∀ op' ∈ levels.flatten, op.symbol = op'.symbol →
      op = op' := by
    decide
  exact all op (mem_levels op) op' (mem_levels op') same

/-- The levels from a rank on: the first holds the operators of this rank, the others bind
tighter. -/
theorem levels_drop {p : Nat} (low : 2 ≤ p) (high : p ≤ 11) :
    ∃ ops, levels.drop (p - 2) = ops :: levels.drop (p + 1 - 2) ∧ ∀ op, op ∈ ops ↔
      op.rank = p := by
  obtain ⟨k, rfl⟩ := Nat.exists_eq_add_of_le' low
  have few : k < 10 := by omega
  have shape : ∀ k < 10, levels.drop k = levels.getD k [] :: levels.drop (k + 1) := by decide
  have ranked : ∀ k < 10, ∀ op ∈ levels.flatten, op ∈ levels.getD k [] ↔ op.rank = k + 2 := by
    decide
  exact ⟨levels.getD k [], shape k few, fun op => ranked k few op (mem_levels op)⟩

section Operators

variable {ops : List InfixOperator} {p : Nat} {rest : List Token}

/-- A mark that is none of the operators of a level is left in place. -/
theorem operator?_missing {m : Text} (missing : ∀ op ∈ ops, op.symbol ≠ m) :
    operator? ops (.mark m :: rest) = some (none, .mark m :: rest) := by
  have none : (ops.find? fun op => op.symbol == m) = none :=
    List.find?_eq_none.2 fun op listed =>
      ne_true_of_eq_false (beq_eq_false_iff_ne.2 (missing op listed))
  refine bind_some (a := some (.mark m)) rfl ?_
  dsimp only
  rw [none]
  rfl

/-- A level finds none of its operators where a term of its rank stops. -/
theorem operator?_stop (ranked : ∀ op ∈ ops, op.rank = p) (stop : Stop p rest) :
    operator? ops rest = some (none, rest) := by
  cases stop with
  | @ends m rest listed =>
    have other : ∀ m ∈ stops, ∀ op ∈ levels.flatten, op.symbol ≠ Text.ofString m := by decide
    exact operator?_missing fun op _ => other m listed op (mem_levels op)
  | joins binds less =>
    cases binds with
    | ascription => rfl
    | test =>
      have other : ∀ op ∈ levels.flatten, op.symbol ≠ "?" := by decide
      exact operator?_missing fun op _ => other op (mem_levels op)
    | operator op =>
      refine operator?_missing fun op' listed same => ?_
      rw [symbol_injective same] at listed
      exact absurd (ranked op listed) (Nat.ne_of_lt less)

theorem operator?_symbol {op : InfixOperator} (listed : op ∈ ops) :
    operator? ops (.mark op.symbol :: rest) = some (some op, rest) := by
  have found : (ops.find? fun op' => op'.symbol == op.symbol) = some op := by
    cases search : ops.find? fun op' => op'.symbol == op.symbol with
    | none => exact absurd (beq_self_eq_true op.symbol) (List.find?_eq_none.1 search op listed)
    | some op' =>
      have same := List.find?_some search
      rw [symbol_injective (beq_iff_eq.1 same)]
  refine bind_some (a := some (.mark op.symbol)) rfl ?_
  dsimp only
  rw [found]
  rfl

variable {n : Nat} {tighter : List (List InfixOperator)} {t : Term}

/-- The loop of a level is left where a term of its rank stops. -/
theorem operands_stop (ranked : ∀ op ∈ ops, op.rank = p) (stop : Stop p rest) :
    operands (n + 1) ops tighter t rest = some (t, rest) := by
  rw [operands]
  exact bind_some (operator?_stop ranked stop) rfl

/-- No test follows where a whole term stops. -/
theorem accept_question (stop : Stop 1 rest) : acceptMark "?" rest = some (false, rest) := by
  cases stop with
  | @ends m rest listed =>
    have apart : ∀ m ∈ stops, Token.mark (Text.ofString m) ≠ .mark "?" := by decide
    exact accept_other (apart m listed)
  | joins binds less =>
    cases binds with
    | ascription => rfl
    | test => exact absurd less (Nat.lt_irrefl 1)
    | operator op => cases op <;> exact absurd less (by decide)

/-- No member, position or call follows where a term stops, whatever its rank. -/
theorem suffixes_stop (stop : Stop p rest) : suffixes (n + 1) t rest = some (t, rest) := by
  cases stop with
  | ends listed =>
    simp only [stops, List.mem_cons, List.not_mem_nil, or_false] at listed
    rcases listed with rfl | rfl | rfl | rfl | rfl <;> rfl
  | joins binds less =>
    cases binds with
    | ascription => rfl
    | test => rfl
    | operator op => cases op <;> rfl

end Operators

/-! ## Levels -/

/-- The term is read by the level of rank `p`, in front of what does not go on with it. -/
def LevelAt (p : Nat) (t : Term) : Prop :=
  ∀ ⦃fuel rest⦄, 16 * t.tokens.length < fuel + p → Stop p rest →
    level fuel (levels.drop (p - 2)) (t.tokens ++ rest) = some (t.spoken, rest)

/-- The level of rank `p` goes on after the term with its operators, if nothing that binds tighter
follows. The fuel that is left suffices for more. -/
def SpineAt (p : Nat) (t : Term) : Prop :=
  ∀ ⦃fuel rest ops tighter⦄, levels.drop (p - 2) = ops :: tighter →
    16 * t.tokens.length < fuel + p → Stop (p + 1) rest →
    ∃ left, fuel ≤ left + t.tokens.length ∧
      level fuel (ops :: tighter) (t.tokens ++ rest) = operands left ops tighter t.spoken rest

/-- The term is read as a whole. -/
def TermAt (t : Term) : Prop :=
  ∀ ⦃fuel rest⦄, 16 * t.tokens.length ≤ fuel → Stop 1 rest →
    term fuel (t.tokens ++ rest) = some (t.spoken, rest)

section Levels

variable {p : Nat} {t : Term}

/-- Where nothing goes on with the term, the loop of its level ends after it. -/
theorem SpineAt.levelAt (low : 2 ≤ p) (high : p ≤ 11) (some : 0 < t.tokens.length)
    (spine : SpineAt p t) : LevelAt p t := by
  intro fuel rest enough stop
  obtain ⟨ops, shape, ranked⟩ := levels_drop low high
  obtain ⟨left, spent, reads⟩ := spine shape enough (stop.mono (Nat.le_succ p))
  obtain ⟨n, rfl⟩ : ∃ n, left = n + 1 := ⟨left - 1, by omega⟩
  rw [shape, reads]
  exact operands_stop (fun op => (ranked op).1) stop

/-- What the next tighter level reads is the first operand of the loop. -/
theorem LevelAt.spineAt (low : 2 ≤ p) (high : p ≤ 11) (some : 0 < t.tokens.length)
    (reads : LevelAt (p + 1) t) : SpineAt p t := by
  intro fuel rest ops tighter shape enough stop
  obtain ⟨ops', shape', -⟩ := levels_drop low high
  obtain ⟨rfl, rfl⟩ := List.cons.inj (shape.symm.trans shape')
  obtain ⟨n, rfl⟩ : ∃ n, fuel = n + 1 := ⟨fuel - 1, by omega⟩
  refine ⟨n, by omega, ?_⟩
  rw [level]
  exact bind_some (reads (by omega) stop) rfl

/-- What a level reads is read by the looser levels too. -/
theorem LevelAt.loosen (low : 2 ≤ p) (some : 0 < t.tokens.length) {k : Nat} (high : p + k ≤ 12)
    (reads : LevelAt (p + k) t) : LevelAt p t := by
  induction k with
  | zero => exact reads
  | succ k ih =>
    have tight : LevelAt (p + k + 1) t := reads
    exact ih (by omega)
      ((tight.spineAt (by omega) (by omega) some).levelAt (by omega) (by omega) some)

/-- What the loosest level reads is a whole term if no test follows. -/
theorem LevelAt.termAt (some : 0 < t.tokens.length) (reads : LevelAt 2 t) : TermAt t := by
  intro fuel rest enough stop
  obtain ⟨n, rfl⟩ : ∃ n, fuel = n + 1 := ⟨fuel - 1, by omega⟩
  rw [Reading.term]
  refine bind_some (reads (by omega) (stop.mono (by omega))) ?_
  exact bind_some (accept_question stop) rfl

end Levels

/-! ## Operands -/

/-- The term is read as an operand of unary operators. -/
def OperandAt (t : Term) : Prop :=
  ∀ ⦃n rest⦄, 16 * t.tokens.length ≤ n + 13 → Stop 12 rest →
    unary (n + 1) (t.tokens ++ rest) = some (t.spoken, rest)

/-- The term is read up to where members, positions and calls follow it. -/
def HeadAt (t : Term) : Prop :=
  ∀ ⦃n rest⦄, 16 * t.tokens.length ≤ n + 13 →
    unary (n + 1) (t.tokens ++ rest) = suffixes n t.spoken rest

/-- The term is read between parentheses. -/
def EnclosedAt (t : Term) : Prop :=
  ∀ ⦃n rest⦄, 16 * t.tokens.length ≤ n →
    primary (n + 1) (.mark "(" :: (t.tokens ++ .mark ")" :: rest)) = some (.paren t.spoken, rest)

/-- The term is read back, in all places where its rank lets it stand. -/
structure ReadsBack (t : Term) : Prop where
  spine : ∀ {p : Nat}, 2 ≤ p → p ≤ 11 → p ≤ t.rank → SpineAt p t
  operand : 12 ≤ t.rank → OperandAt t
  term : 1 ≤ t.rank → TermAt t
  head : t.isHead = true → HeadAt t
  enclosed : EnclosedAt t

/-- The marks with which a term can begin. -/
def fronts : List String := ["(", "!", "-", "~"]

/-- The tokens begin with one with which a term can begin. -/
inductive Begins : List Token → Prop
  | word (w : Text) (rest : List Token) : Begins (.word w :: rest)
  | number (x : Double) (rest : List Token) : Begins (.number x :: rest)
  | text (t : Text) (rest : List Token) : Begins (.text t :: rest)
  | mark {m : String} (rest : List Token) : m ∈ fronts → Begins (.mark m :: rest)

theorem Begins.append {ts : List Token} (begins : Begins ts) (rest : List Token) :
    Begins (ts ++ rest) := by
  cases begins with
  | word w more => exact .word w _
  | number x more => exact .number x _
  | text t more => exact .text t _
  | mark more listed => exact .mark _ listed

theorem Begins.length_pos {ts : List Token} (begins : Begins ts) : 0 < ts.length := by
  cases begins <;> exact Nat.succ_pos _

/-- A mark with which no term begins is not accepted in front of one. -/
theorem Begins.accept_mark {ts : List Token} (begins : Begins ts) {m : String}
    (other : ∀ front ∈ fronts, Token.mark (Text.ofString front) ≠ .mark m) :
    acceptMark m ts = some (false, ts) := by
  cases begins with
  | word w more | number x more | text t more => exact accept_other Token.noConfusion
  | mark more opens => exact accept_other (other _ opens)

theorem begins_double (x : Double) : Begins x.tokens := by
  unfold Double.tokens
  split
  · exact .mark _ (by decide)
  · cases x with
    | nan | infinite _ => exact .word _ _
    | finite _ _ => exact .number _ _

/-- Every term has a token, and begins as a term can. -/
theorem begins_tokens (t : Term) : Begins t.tokens := by
  induction t with
  | name x => exact .word _ _
  | undefined | null => exact .word _ _
  | bool b => cases b <;> exact .word _ _
  | number x | fractional x => exact begins_double x
  | text t | singleText t | nullUnit => exact .text _ _
  | paren t => exact .mark _ (by decide)
  | unary op t => cases op <;> exact .mark _ (by decide)
  | call f t => cases f <;> exact .word _ _
  | call₂ f left right => cases f <;> exact .word _ _
  | format formatter t | parse formatter t => exact .word _ _
  | ascribe t _ ih | index t _ ih | member t _ ih | invoke t _ ih | charCode t ih =>
    exact ih.append _
  | binary _ t _ ih | tail t _ ih | cond t _ _ ih | slice t _ _ ih => exact ih.append _

section Operands

variable {t : Term}

/-- Past the last level there are operands only. -/
theorem OperandAt.levelAt (operand : OperandAt t) : LevelAt 12 t := by
  intro fuel rest enough stop
  have some := (begins_tokens t).length_pos
  obtain ⟨n, rfl⟩ : ∃ n, fuel = n + 2 := ⟨fuel - 2, by omega⟩
  exact operand (by omega) stop

/-- A head is an operand where nothing follows that belongs to it. -/
theorem HeadAt.operandAt (head : HeadAt t) : OperandAt t := by
  intro n rest enough stop
  have some := (begins_tokens t).length_pos
  obtain ⟨n, rfl⟩ : ∃ k, n = k + 1 := ⟨n - 1, by omega⟩
  rw [head enough]
  exact suffixes_stop stop

theorem TermAt.enclosedAt (reads : TermAt t) : EnclosedAt t := by
  intro n rest enough
  have inside := @reads n (.mark ")" :: rest) enough (.ends (by decide))
  rw [primary]
  refine bind_some (a := .mark "(") rfl ?_
  exact bind_some inside rfl

/-- A term is read by every level that binds no tighter than its rank. -/
theorem ReadsBack.level (back : ReadsBack t) {p : Nat} (low : 2 ≤ p) (high : p ≤ 12)
    (tight : p ≤ t.rank) : LevelAt p t := by
  rcases Nat.lt_or_eq_of_le high with less | rfl
  · exact (back.spine low (by omega) tight).levelAt low (by omega) (begins_tokens t).length_pos
  · exact (back.operand tight).levelAt

/-- An operand passes through all levels. -/
theorem OperandAt.loosen (operand : OperandAt t) {p : Nat} (low : 2 ≤ p) (high : p ≤ 12) :
    LevelAt p t := by
  obtain ⟨k, sum⟩ := Nat.exists_eq_add_of_le high
  exact LevelAt.loosen low (begins_tokens t).length_pos (Nat.le_of_eq sum.symm)
    (sum ▸ operand.levelAt)

theorem OperandAt.termAt (operand : OperandAt t) : TermAt t :=
  (operand.loosen (Nat.le_refl 2) (by decide)).termAt (begins_tokens t).length_pos

/-- An operand can stand in all places, and where a head is asked for if it is one. -/
theorem OperandAt.readsBack_of (operand : OperandAt t) (head : t.isHead = true → HeadAt t) :
    ReadsBack t where
  spine := fun low high _ =>
    (operand.loosen (by omega) (by omega)).spineAt low high (begins_tokens t).length_pos
  operand := fun _ => operand
  term := fun _ => operand.termAt
  head := head
  enclosed := operand.termAt.enclosedAt

theorem OperandAt.readsBack (operand : OperandAt t) (other : t.isHead = false) : ReadsBack t :=
  operand.readsBack_of fun head => absurd (head.symm.trans other) Bool.noConfusion

theorem HeadAt.readsBack (head : HeadAt t) : ReadsBack t :=
  head.operandAt.readsBack_of fun _ => head

/-- A conditional or an ascription stands in no place that binds tighter. -/
theorem ReadsBack.of_loose (loose : t.rank ≤ 1) (other : t.isHead = false)
    (reads : 1 ≤ t.rank → TermAt t) (enclosed : EnclosedAt t) : ReadsBack t where
  spine := fun low _ tight => absurd (Nat.le_trans low (Nat.le_trans tight loose)) (by decide)
  operand := fun tight => absurd (Nat.le_trans tight loose) (by decide)
  term := reads
  head := fun head => absurd (head.symm.trans other) Bool.noConfusion
  enclosed := enclosed

/-- A term that its own level reads stands in looser places too. -/
theorem SpineAt.readsBack (low : 2 ≤ t.rank) (high : t.rank ≤ 11) (spine : SpineAt t.rank t)
    (other : t.isHead = false) : ReadsBack t := by
  have some := (begins_tokens t).length_pos
  have level {p : Nat} (low : 2 ≤ p) (loose : p ≤ t.rank) : LevelAt p t := by
    obtain ⟨k, sum⟩ := Nat.exists_eq_add_of_le loose
    exact LevelAt.loosen low some (by omega) (sum ▸ spine.levelAt (by omega) high some)
  have whole := (level (Nat.le_refl 2) low).termAt some
  refine ⟨fun low high loose => ?_,
    fun tight => by omega, fun _ => whole, fun head => ?_, whole.enclosedAt⟩
  · rcases Nat.lt_or_eq_of_le loose with less | rfl
    · exact (level (by omega) less).spineAt low high some
    · exact spine
  · rw [other] at head
    cases head

end Operands

/-! ### Tokens of one operand -/

section Leaves

variable {t : Term} {n : Nat} {rest : List Token}

/-- The words that are no names in code. -/
def reserved : List String :=
  ["new", "undefined", "null", "true", "false", "NaN", "Infinity", "const", "let", "if",
    "try", "return"]

/-- A word that is not reserved reads as a name. -/
theorem ofWord_name {w : Text} (free : ∀ r ∈ reserved, w ≠ Text.ofString r) :
    ofWord w = .name (.plain w) := by
  simp only [reserved, List.forall_mem_cons] at free
  obtain ⟨-, undefined, null, yes, no, nan, infinity, -⟩ := free
  rw [ofWord, if_neg undefined, if_neg null, if_neg yes, if_neg no, if_neg nan, if_neg infinity]

/-- Any word but the one of a construction is a primary term. -/
theorem unary_word {w : Text} (noNew : w ≠ "new") :
    unary (n + 2) (.word w :: rest) = suffixes (n + 1) (ofWord w) rest := by
  have other : Token.word w ≠ .word "new" := fun same => noNew (Token.word.inj same)
  rw [unary]
  refine bind_some (a := false) rfl ?_
  refine bind_some (a := false) rfl ?_
  refine bind_some (a := false) rfl ?_
  refine bind_some (accept_other other) ?_
  exact bind_some (a := ofWord w) rfl rfl

/-- Names are heads unless they are reserved words. -/
theorem headAt_name {x : Name} (free : ∀ r ∈ reserved, x.text ≠ Text.ofString r) :
    HeadAt (.name x) := by
  intro n rest enough
  obtain ⟨n, rfl⟩ : ∃ k, n = k + 1 :=
    ⟨n - 1, by rw [Term.tokens, List.length_singleton] at enough; omega⟩
  rw [Term.spoken, ← ofWord_name free]
  exact unary_word (free "new" (by decide))

/-- What stands between parentheses is a head. -/
theorem EnclosedAt.headAt (enclosed : EnclosedAt t) : HeadAt (.paren t) := by
  intro n rest enough
  simp only [Term.tokens, List.length_cons, List.length_append, List.length_nil] at enough
  obtain ⟨n, rfl⟩ : ∃ k, n = k + 1 := ⟨n - 1, by omega⟩
  rw [Term.tokens, List.cons_append, List.append_assoc]
  show (primary (n + 1) >>= fun t => suffixes (n + 1) t) _ = _
  exact bind_some (enclosed (by omega)) rfl

/-- A term of one token. -/
theorem operandAt_token {token : Token} (single : t.tokens = [token])
    (reads : ∀ n rest, unary (n + 2) (token :: rest) = suffixes (n + 1) t.spoken rest) :
    OperandAt t := by
  intro n rest enough stop
  rw [single, List.length_singleton] at enough
  obtain ⟨n, rfl⟩ : ∃ k, n = k + 1 := ⟨n - 1, by omega⟩
  rw [single, List.singleton_append, reads]
  exact suffixes_stop stop

/-- A number is read with its sign: a minus in front of it is a negation. -/
theorem operandAt_number (x : Double) (same : t.tokens = x.tokens)
    (spoken : t.spoken = x.spoken) : OperandAt t := by
  have alone (n : Nat) (rest : List Token) :
      unary (n + 2) (x.token :: rest) = suffixes (n + 1) (.number x.abs) rest := by
    cases x <;> rfl
  by_cases signed : x.isSigned = true
  · intro n rest enough stop
    rw [same, Double.tokens, if_pos signed] at enough ⊢
    obtain ⟨n, rfl⟩ : ∃ k, n = k + 2 := ⟨n - 2, by simp at enough; omega⟩
    rw [spoken, Double.spoken, if_pos signed]
    show (unary (n + 2) >>= fun t => pure (Term.unary .negate t)) (x.token :: rest) = _
    refine bind_some (a := .number x.abs) ?_ rfl
    rw [alone]
    exact suffixes_stop stop
  · refine @operandAt_token _ x.token ?_ ?_
    · rw [same, Double.tokens, if_neg signed]
    · rw [spoken, Double.spoken, if_neg signed]
      exact alone

end Leaves

/-! ### Calls -/

/-- The arguments of a call and the parenthesis after them are read as these terms. -/
def ArgumentsAt (ts : List Token) (args : List Term) : Prop :=
  ∀ ⦃n rest⦄, 16 * ts.length ≤ n → arguments n (ts ++ rest) = some (args, rest)

section Calls

variable {t u : Term} {n : Nat} {ts rest : List Token} {args : List Term}

theorem TermAt.argumentsAt (reads : TermAt t) :
    ArgumentsAt (t.tokens ++ [.mark ")"]) [t.spoken] := by
  intro n rest enough
  simp only [List.length_append, List.length_singleton] at enough
  obtain ⟨n, rfl⟩ : ∃ k, n = k + 1 := ⟨n - 1, by omega⟩
  have begins := (begins_tokens t).append (.mark ")" :: rest)
  rw [List.append_assoc, List.singleton_append, arguments]
  refine bind_some (begins.accept_mark (by decide)) ?_
  exact bind_some (reads (by omega) (.ends (by decide))) rfl

theorem TermAt.argumentsAt_cons (reads : TermAt t) (more : ArgumentsAt ts args) :
    ArgumentsAt (t.tokens ++ .mark "," :: ts) (t.spoken :: args) := by
  intro n rest enough
  simp only [List.length_append, List.length_cons] at enough
  obtain ⟨n, rfl⟩ : ∃ k, n = k + 1 := ⟨n - 1, by omega⟩
  have begins := (begins_tokens t).append (.mark "," :: (ts ++ rest))
  rw [List.append_assoc, List.cons_append, arguments]
  refine bind_some (begins.accept_mark (by decide)) ?_
  refine bind_some (reads (by omega) (.ends (by decide))) ?_
  refine bind_some (a := true) rfl ?_
  exact bind_some (more (by omega)) rfl

/-- A call of a method after a head. -/
theorem HeadAt.operandAt_call (head : HeadAt t) (arguments : ArgumentsAt ts args) {method : Text}
    (tokens : u.tokens = t.tokens ++ .mark "." :: .word method :: .mark "(" :: ts)
    (called : callMethod t.spoken method args = some u.spoken) : OperandAt u := by
  intro n rest enough stop
  rw [tokens] at enough ⊢
  simp only [List.length_append, List.length_cons] at enough
  obtain ⟨n, rfl⟩ : ∃ k, n = k + 2 := ⟨n - 2, by omega⟩
  rw [List.append_assoc, head (by omega)]
  show (Reading.arguments (n + 1) >>= fun args =>
    ofOption (callMethod t.spoken method args) >>= fun result => suffixes (n + 1) result)
      (ts ++ rest) = _
  refine bind_some (arguments (by omega)) ?_
  rw [called]
  exact suffixes_stop stop

/-- The methods that terms call with arguments. -/
def methods : List String := ["format", "parse", "substring", "charCodeAt"]

/-- No function is named like a method of a term. -/
theorem call_method {method : String} (listed : method ∈ methods) (t : Term) (args : List Term) :
    call (.member t method) args = none := by
  have suffix : ∃ before, (Term.member t method).toText = before ++ (("." : Text) ++ method) := by
    have dotted : ∀ method ∈ methods, Term.memberText method = ("." : Text) ++ method := by decide
    exact ⟨t.toText, by rw [Term.toText, dotted method listed]⟩
  obtain ⟨before, text⟩ := suffix
  have one : ∀ method ∈ methods, ∀ f ∈ functions, ¬ ("." ++ method : Text) <:+ f.text := by decide
  have two : ∀ method ∈ methods, ∀ f ∈ functions₂, ¬ ("." ++ method : Text) <:+ f.text := by
    decide
  have missing : (functions.find? fun f => f.text == (Term.member t method).toText) = none := by
    refine List.find?_eq_none.2 fun f among same => one method listed f among ⟨before, ?_⟩
    rw [← text]
    exact (eq_of_beq same).symm
  have missing₂ : (functions₂.find? fun f => f.text == (Term.member t method).toText) = none := by
    refine List.find?_eq_none.2 fun f among same => two method listed f among ⟨before, ?_⟩
    rw [← text]
    exact (eq_of_beq same).symm
  rcases args with _ | ⟨a, _ | ⟨b, _ | ⟨c, args⟩⟩⟩
  · rfl
  · rw [call, missing, Option.map_none]
  · rw [call, missing₂, Option.map_none]
  · rfl

/-- A call without arguments is a call of a method of the term before it, whatever its name. -/
theorem callMethod_nil (t : Term) (method : Text) :
    callMethod t method [] = some (.invoke t method) := by
  cases t <;> rfl

theorem callMethod_format (f : Name) (a : Term) :
    callMethod (.name f) "format" [a] = some (.format f a) := by
  rw [callMethod, call_method (by decide)]
  rfl

theorem callMethod_parse (f : Name) (a : Term) :
    callMethod (.name f) "parse" [a] = some (.parse f a) := by
  rw [callMethod, call_method (by decide)]
  rfl

theorem callMethod_charCode (x : Name) :
    callMethod (.name x) "charCodeAt" [.number (.zero false)] = some (.charCode (.name x)) := by
  rw [callMethod, call_method (by decide)]
  rfl

/-- With one argument this method is the tail of a text, with two a slice of it. -/
theorem callMethod_tail (t a : Term) : callMethod t "substring" [a] = some (.tail t a) := by
  unfold callMethod
  rw [call_method (by decide)]
  cases t <;> rfl

theorem callMethod_slice (t a b : Term) :
    callMethod t "substring" [a, b] = some (.slice t a b) := by
  rw [callMethod, call_method (by decide)]
  cases t <;> rfl

/-- The names under which the functions of a unit are found. -/
theorem headAt_root (root : String)
    (free : ∀ r ∈ reserved, Text.ofString root ≠ Text.ofString r) :
    HeadAt (.name (.plain root)) := headAt_name free

/-- A construction begins with a word of its own and reads its argument itself. -/
theorem TermAt.operandAt_makeDate (reads : TermAt t) : OperandAt (.call .makeDate t) := by
  intro n rest enough stop
  simp only [Term.tokens, Function.tokens, List.length_append, List.length_cons] at enough
  rw [Term.tokens, List.append_assoc, List.cons_append, List.append_assoc]
  show (term n >>= fun t => mark ")" >>= fun _ => pure (Term.call .makeDate t))
    (t.tokens ++ .mark ")" :: rest) = _
  exact bind_some (reads (by omega) (.ends (by decide))) rfl

/-- The one function that is called by a plain name. -/
theorem TermAt.operandAt_string (reads : TermAt t) : OperandAt (.call .string t) := by
  intro n rest enough stop
  simp only [Term.tokens, Function.tokens, List.length_append, List.length_cons] at enough
  obtain ⟨n, rfl⟩ : ∃ k, n = k + 3 := ⟨n - 3, by omega⟩
  rw [Term.tokens, List.append_assoc, List.cons_append]
  refine (unary_word (by decide)).trans ?_
  show (arguments (n + 2) >>= fun args =>
    ofOption (call (.name (.plain "String")) args) >>= fun result =>
      suffixes (n + 2) result) _ = _
  exact bind_some (reads.argumentsAt (by simp; omega)) (suffixes_stop stop)

/-- The functions of primitives are found two members deep. -/
theorem TermAt.operandAt_valueOf (reads : TermAt t) (p : Primitive) :
    OperandAt (.call (.valueOf p) t) := by
  intro n rest enough stop
  have called (a : Term) : callMethod (.member (.name (.plain "runtime")) "valueOf") p.name [a] =
      some (.call (.valueOf p) a) := by
    cases p <;> rfl
  simp only [Term.tokens, Function.tokens, List.length_append, List.length_cons] at enough
  obtain ⟨n, rfl⟩ : ∃ k, n = k + 4 := ⟨n - 4, by omega⟩
  rw [Term.tokens, List.append_assoc, List.cons_append]
  refine (unary_word (by decide)).trans ?_
  show (arguments (n + 2) >>= fun args =>
    ofOption (callMethod (.member (.name (.plain "runtime")) "valueOf")
      p.name args) >>= fun result => suffixes (n + 2) result) _ = _
  refine bind_some (reads.argumentsAt (by simp; omega)) ?_
  rw [called]
  exact suffixes_stop stop

/-- A call of a function by its name. -/
theorem TermAt.operandAt_call (reads : TermAt t) (f : Function) : OperandAt (.call f t) := by
  have arguments := reads.argumentsAt
  cases f with
  | trunc => exact (headAt_root "Math" (by decide)).operandAt_call arguments rfl rfl
  | abs => exact (headAt_root "Math" (by decide)).operandAt_call arguments rfl rfl
  | single => exact (headAt_root "Math" (by decide)).operandAt_call arguments rfl rfl
  | charOf => exact (headAt_root "String" (by decide)).operandAt_call arguments rfl rfl
  | divisor => exact (headAt_root "runtime" (by decide)).operandAt_call arguments rfl rfl
  | epochMillis => exact (headAt_root "runtime" (by decide)).operandAt_call arguments rfl rfl
  | string => exact reads.operandAt_string
  | makeDate => exact reads.operandAt_makeDate
  | valueOf p => exact reads.operandAt_valueOf p

theorem TermAt.operandAt_call₂ (left : TermAt t) (right : TermAt u) (f : Function₂) :
    OperandAt (.call₂ f t u) := by
  have arguments := left.argumentsAt_cons right.argumentsAt
  cases f with
  | wordProduct => exact (headAt_root "Math" (by decide)).operandAt_call arguments rfl rfl
  | equals => exact (headAt_root "runtime" (by decide)).operandAt_call arguments rfl rfl

end Calls

/-! ### Members -/

section Members

variable {t : Term}

/-- A position is read as the number that it is. -/
theorem HeadAt.operandAt_index (head : HeadAt t) {i : Nat} (small : i < 2 ^ 53) :
    OperandAt (.index t i) := by
  intro n rest enough stop
  have position : (Double.ofInt i).toInt? = some i := Double.toInt?_ofInt small
  simp only [Term.tokens, List.length_append, List.length_cons] at enough
  obtain ⟨n, rfl⟩ : ∃ k, n = k + 2 := ⟨n - 2, by omega⟩
  rw [Term.tokens, List.append_assoc, head (by omega), suffixes]
  refine bind_some (a := false) rfl ?_
  refine bind_some (a := true) rfl ?_
  refine bind_some (a := .number (Double.ofInt i)) rfl ?_
  refine bind_some (a := ()) rfl ?_
  rw [position]
  exact suffixes_stop stop

/-- Where a term stops, it is not called. -/
theorem accept_open {p : Nat} {rest : List Token} (stop : Stop p rest) :
    acceptMark "(" rest = some (false, rest) := by
  cases stop with
  | ends listed =>
    simp only [stops, List.mem_cons, List.not_mem_nil, or_false] at listed
    rcases listed with rfl | rfl | rfl | rfl | rfl <;> rfl
  | joins binds less =>
    cases binds with
    | ascription => rfl
    | test => rfl
    | operator op => cases op <;> rfl

/-- The access to a member in front of what does not call it. -/
theorem suffixes_access {n : Nat} (field : Text) {rest : List Token}
    (plain : acceptMark "(" rest = some (false, rest)) :
    suffixes (n + 1) t (Token.access field ++ rest) = suffixes n (.member t field) rest := by
  unfold Token.access
  split
  · rw [suffixes]
    refine bind_some (a := true) rfl ?_
    refine bind_some (a := field) rfl ?_
    exact bind_some plain rfl
  · rw [suffixes]
    refine bind_some (a := false) rfl ?_
    refine bind_some (a := true) rfl ?_
    refine bind_some (a := .text field) rfl ?_
    refine bind_some (a := ()) rfl ?_
    exact bind_some plain rfl

/-- The access to a method and a call of it without arguments. -/
theorem suffixes_invoke {n : Nat} (method : Text) {rest : List Token} :
    suffixes (n + 2) t (Token.access method ++ .mark "(" :: .mark ")" :: rest) =
      suffixes (n + 1) (.invoke t method) rest := by
  unfold Token.access
  split
  · rw [suffixes]
    refine bind_some (a := true) rfl ?_
    refine bind_some (a := method) rfl ?_
    refine bind_some (a := true) rfl ?_
    refine bind_some (a := []) rfl ?_
    rw [callMethod_nil]
    rfl
  · rw [suffixes]
    refine bind_some (a := false) rfl ?_
    refine bind_some (a := true) rfl ?_
    refine bind_some (a := .text method) rfl ?_
    refine bind_some (a := ()) rfl ?_
    refine bind_some (a := true) rfl ?_
    refine bind_some (a := []) rfl ?_
    rw [callMethod_nil]
    rfl

/-- A member, by either of the two forms of access. -/
theorem HeadAt.operandAt_member (head : HeadAt t) (field : Text) :
    OperandAt (.member t field) := by
  intro n rest enough stop
  have some := (begins_tokens t).length_pos
  simp only [Term.tokens, List.length_append] at enough
  obtain ⟨n, rfl⟩ : ∃ k, n = k + 2 := ⟨n - 2, by omega⟩
  rw [Term.tokens, List.append_assoc, head (by omega), suffixes_access field (accept_open stop)]
  exact suffixes_stop stop

theorem HeadAt.operandAt_invoke (head : HeadAt t) (method : Text) :
    OperandAt (.invoke t method) := by
  intro n rest enough stop
  simp only [Term.tokens, List.length_append, List.length_cons] at enough
  obtain ⟨n, rfl⟩ : ∃ k, n = k + 2 := ⟨n - 2, by omega⟩
  rw [Term.tokens, List.append_assoc, List.append_assoc, head (by omega)]
  refine (suffixes_invoke method).trans ?_
  exact suffixes_stop stop

end Members

/-! ### Operators -/

section Joined

variable {t left right : Term}

/-- A unary operator in front of an operand is an operand. -/
theorem ReadsBack.operandAt_unary (operand : ReadsBack t) (tight : 12 ≤ t.rank)
    (op : UnaryOperator) : OperandAt (.unary op t) := by
  intro n rest enough stop
  have step : unary (n + 1) (.mark op.symbol :: (t.tokens ++ rest)) =
      (unary n >>= fun t => pure (Term.unary op t)) (t.tokens ++ rest) := by
    cases op <;> rfl
  simp only [Term.tokens, List.length_cons] at enough
  obtain ⟨n, rfl⟩ : ∃ k, n = k + 1 := ⟨n - 1, by omega⟩
  rw [Term.tokens, List.cons_append, step]
  exact bind_some (operand.operand tight (by omega) stop) rfl

/-- After an operator and its right operand the loop of its level goes on. -/
theorem ReadsBack.spineAt_binary (op : InfixOperator) (first : ReadsBack left)
    (second : ReadsBack right) (loose : op.rank ≤ left.rank) (tight : op.rank < right.rank) :
    SpineAt op.rank (.binary op left right) := by
  intro fuel rest ops tighter shape enough stop
  obtain ⟨low, high⟩ := op.rank_bounds
  obtain ⟨ops', shape', ranked⟩ := levels_drop low high
  obtain ⟨rfl, rfl⟩ := List.cons.inj (shape.symm.trans shape')
  simp only [Term.tokens, List.length_append, List.length_cons] at enough
  obtain ⟨left', spent, reads⟩ := @ReadsBack.spine _ first _ low high loose fuel
    (.mark op.symbol :: (right.tokens ++ rest)) ops _ shape (by omega)
      (.joins (.operator op) (Nat.lt_succ_self _))
  obtain ⟨n, rfl⟩ : ∃ n, left' = n + 1 := ⟨left' - 1, by omega⟩
  refine ⟨n, by simp only [Term.tokens, List.length_append, List.length_cons]; omega, ?_⟩
  rw [Term.tokens, List.append_assoc, List.cons_append, reads, operands]
  refine bind_some (operator?_symbol ((ranked op).2 rfl)) ?_
  exact bind_some (second.level (by omega) (by omega) tight (by omega) stop) rfl

/-- A test, and the two terms from which it chooses. -/
theorem termAt_cond {test yes no : Term} (first : LevelAt 2 test) (second : TermAt yes)
    (third : TermAt no) : TermAt (.cond test yes no) := by
  intro fuel rest enough stop
  simp only [Term.tokens, List.length_append, List.length_cons] at enough
  obtain ⟨n, rfl⟩ : ∃ n, fuel = n + 1 := ⟨fuel - 1, by omega⟩
  rw [Term.tokens, List.append_assoc, List.cons_append, List.append_assoc,
    List.cons_append, Reading.term]
  refine bind_some (first (by omega) (.joins .test (by decide))) ?_
  refine bind_some (a := true) rfl ?_
  refine bind_some (second (by omega) (.ends (by decide))) ?_
  refine bind_some (a := ()) rfl ?_
  exact bind_some (third (by omega) stop) rfl

end Joined

/-! ### Annotations -/

/-- The marks that follow an annotation. -/
def marksAfter : List String := [")", "=", ";"]

/-- An annotation is read as its text, up to one of the marks that can follow it. -/
theorem typeMark_tokens (a : TypeMark) {m : String} (listed : m ∈ marksAfter)
    (rest : List Token) :
    typeMark (a.tokens ++ .mark m :: rest) = some (a.text, .mark m :: rest) := by
  rcases a with ⟨w, array, nullable, identifier⟩
  simp only [marksAfter, List.mem_cons, List.not_mem_nil, or_false] at listed
  rcases listed with rfl | rfl | rfl
  all_goals cases array <;> cases nullable <;> rfl

theorem typeMark_text {type : Text} (marked : type.IsTypeMark) {m : String}
    (listed : m ∈ marksAfter) (rest : List Token) :
    typeMark (type.markTokens ++ .mark m :: rest) = some (type, .mark m :: rest) := by
  obtain ⟨a, rfl⟩ := marked
  rw [a.markTokens_text]
  exact typeMark_tokens a listed rest

/-- An ascription is read between parentheses, and only there. -/
theorem TermAt.enclosedAt_ascribe {t : Term} (reads : TermAt t) {type : Text}
    (marked : type.IsTypeMark) : EnclosedAt (.ascribe t type) := by
  intro n rest enough
  simp only [Term.tokens, List.length_append, List.length_cons] at enough
  rw [Term.tokens, List.append_assoc, List.cons_append, primary]
  refine bind_some (a := .mark "(") rfl ?_
  refine bind_some (reads (by omega) (.joins .ascription (by decide))) ?_
  refine bind_some (a := true) rfl ?_
  exact bind_some (typeMark_text marked (by decide) rest) rfl

end Reading

open Reading in
/-- The tokens of every legible term are read as the term that they speak. -/
theorem Term.readsBack {t : Term} (legible : t.Legible)
    (free : ∀ x ∈ t.names, ∀ r ∈ reserved, x.text ≠ Text.ofString r) : ReadsBack t := by
  induction t with
  | name x =>
    have head := headAt_name (free x List.mem_cons_self)
    exact head.readsBack
  | undefined | null => exact (operandAt_token rfl fun _ _ => rfl).readsBack rfl
  | bool b => cases b <;> exact (operandAt_token rfl fun _ _ => rfl).readsBack rfl
  | text t | singleText t | nullUnit => exact (operandAt_token rfl fun _ _ => rfl).readsBack rfl
  | number x | fractional x => exact (operandAt_number x rfl rfl).readsBack rfl
  | paren t ih =>
    have head := (ih legible free).enclosed.headAt
    exact head.readsBack
  | ascribe t type ih =>
    obtain ⟨legible, whole, marked⟩ := legible
    have enclosed := ((ih legible free).term whole).enclosedAt_ascribe marked
    exact .of_loose (Nat.zero_le 1) rfl (fun one => absurd one (Nat.not_succ_le_zero 0)) enclosed
  | unary op t ih => exact ((ih legible.1 free).operandAt_unary legible.2 op).readsBack rfl
  | binary op left right ihl ihr =>
    obtain ⟨⟨legibleLeft, loose⟩, legibleRight, tight⟩ := legible
    obtain ⟨freeLeft, freeRight⟩ := List.forall_mem_append.1 free
    have spine :=
      ReadsBack.spineAt_binary op (ihl legibleLeft freeLeft)
        (ihr legibleRight freeRight) loose tight
    obtain ⟨low, high⟩ := op.rank_bounds
    exact SpineAt.readsBack low high spine rfl
  | cond test yes no iht ihy ihn =>
    obtain ⟨⟨legibleTest, tight⟩, ⟨legibleYes, whole⟩, legibleNo, whole'⟩ := legible
    obtain ⟨freeTest, others⟩ := List.forall_mem_append.1 free
    obtain ⟨freeYes, freeNo⟩ := List.forall_mem_append.1 others
    have first := (iht legibleTest freeTest).level (Nat.le_refl 2) (by decide) tight
    have cond :=
      termAt_cond first ((ihy legibleYes freeYes).term whole) ((ihn legibleNo freeNo).term whole')
    exact .of_loose (Nat.le_refl 1) rfl (fun _ => cond) cond.enclosedAt
  | index t i ih =>
    obtain ⟨legible, head, small⟩ := legible
    exact (((ih legible free).head head).operandAt_index small).readsBack rfl
  | member t field ih =>
    exact (((ih legible.1 free).head legible.2).operandAt_member field).readsBack rfl
  | invoke t method ih =>
    exact (((ih legible.1 free).head legible.2).operandAt_invoke method).readsBack rfl
  | call f t ih => exact (((ih legible.1 free).term legible.2).operandAt_call f).readsBack rfl
  | call₂ f left right ihl ihr =>
    obtain ⟨⟨legibleLeft, whole⟩, legibleRight, whole'⟩ := legible
    obtain ⟨freeLeft, freeRight⟩ := List.forall_mem_append.1 free
    have first := (ihl legibleLeft freeLeft).term whole
    have second := (ihr legibleRight freeRight).term whole'
    exact (first.operandAt_call₂ second f).readsBack rfl
  | charCode t ih =>
    obtain ⟨x, rfl⟩ := legible
    have zero : OperandAt (.number (.zero false)) := operandAt_number (.zero false) rfl rfl
    have head := (ih trivial free).head rfl
    have operand : OperandAt (.charCode (.name x)) :=
      head.operandAt_call zero.termAt.argumentsAt rfl (callMethod_charCode _)
    exact operand.readsBack rfl
  | tail t start iht ihs =>
    obtain ⟨⟨legible, head⟩, legibleStart, whole⟩ := legible
    obtain ⟨freeHead, freeStart⟩ := List.forall_mem_append.1 free
    have start := (ihs legibleStart freeStart).term whole
    have operand : OperandAt (.tail t _) :=
      ((iht legible freeHead).head head).operandAt_call start.argumentsAt rfl
        (callMethod_tail _ _)
    exact operand.readsBack rfl
  | slice t start stop iht ihs ihe =>
    obtain ⟨⟨legible, head⟩, ⟨legibleStart, whole⟩, legibleStop, whole'⟩ := legible
    obtain ⟨freeHead, others⟩ := List.forall_mem_append.1 free
    obtain ⟨freeStart, freeStop⟩ := List.forall_mem_append.1 others
    have start := (ihs legibleStart freeStart).term whole
    have stop := (ihe legibleStop freeStop).term whole'
    have operand : OperandAt (.slice t _ _) :=
      ((iht legible freeHead).head head).operandAt_call (start.argumentsAt_cons stop.argumentsAt)
        (by simp [Term.tokens, Token.calling]) (callMethod_slice _ _ _)
    exact operand.readsBack rfl
  | format formatter t ih =>
    obtain ⟨here, others⟩ := List.forall_mem_cons.1 free
    have value := (ih legible.1 others).term legible.2
    have operand : OperandAt (.format formatter t) :=
      (headAt_name here).operandAt_call value.argumentsAt rfl (callMethod_format _ _)
    exact operand.readsBack rfl
  | parse formatter t ih =>
    obtain ⟨here, others⟩ := List.forall_mem_cons.1 free
    have value := (ih legible.1 others).term legible.2
    have operand : OperandAt (.parse formatter t) :=
      (headAt_name here).operandAt_call value.argumentsAt rfl (callMethod_parse _ _)
    exact operand.readsBack rfl

/-! ## Statements -/

namespace Reading

/-- What follows a block: the word that returns, or the brace that closes it. -/
inductive BlockEnd : List Token → Prop
  | returned (rest : List Token) : BlockEnd (.word "return" :: rest)
  | closed (rest : List Token) : BlockEnd (.mark "\x7d" :: rest)

section Statements

variable {t : Term} {n : Nat} {rest : List Token}

/-- The value of a declaration or an assignment, with the marks around it. -/
theorem TermAt.assigned (reads : TermAt t) (enough : 16 * t.tokens.length ≤ n) :
    assigned n (.mark "=" :: (t.tokens ++ .mark ";" :: rest)) = some (t.spoken, rest) := by
  rw [Reading.assigned]
  refine bind_some (a := ()) rfl ?_
  exact bind_some (reads enough (.ends (by decide))) rfl

/-- The annotation of a declaration, if it has one. -/
theorem typeMark?_annotated {type : Option Text} (marked : ∀ mark ∈ type, mark.IsTypeMark) :
    typeMark? (Token.annotated type ++ .mark "=" :: rest) = some (type, .mark "=" :: rest) := by
  cases type with
  | none => rfl
  | some type =>
    rw [typeMark?]
    refine bind_some (a := true) rfl ?_
    exact bind_some (typeMark_text (marked type rfl) (by decide) rest) rfl

/-- A block ends in front of a closing brace and of the word that returns. -/
theorem block_end (ends : BlockEnd rest) : block (n + 1) rest = some ([], rest) := by
  cases ends <;> rfl

/-- A declaration is read, and the block goes on after it. -/
theorem block_declare (reads : TermAt t) {type : Option Text}
    (marked : ∀ mark ∈ type, mark.IsTypeMark) {x : Name}
    (enough : 16 * (Statement.declare x type t).tokens.length ≤ n) :
    block (n + 1) ((Statement.declare x type t).tokens ++ rest) =
      (block n >>= fun b => pure (Statement.declare (.plain x.text) type t.spoken :: b))
        rest := by
  simp only [Statement.tokens, List.length_cons, List.length_append] at enough
  rw [Statement.tokens, block]
  simp only [List.cons_append, List.append_assoc, List.nil_append]
  refine bind_some (a := true) rfl ?_
  refine bind_some (a := x.text) rfl ?_
  refine bind_some (typeMark?_annotated marked) ?_
  exact bind_some (reads.assigned (by omega)) rfl

theorem block_reserve {type : Text} (marked : type.IsTypeMark) (x : Name) :
    block (n + 1) ((Statement.reserve x type).tokens ++ rest) =
      (block n >>= fun b => pure (Statement.reserve (.plain x.text) type :: b)) rest := by
  rw [Statement.tokens, block]
  simp only [List.cons_append, List.append_assoc, List.nil_append]
  refine bind_some (a := false) rfl ?_
  refine bind_some (a := true) rfl ?_
  refine bind_some (a := x.text) rfl ?_
  refine bind_some (a := ()) rfl ?_
  exact bind_some (typeMark_text marked (by decide) rest) rfl

/-- An assignment begins with a name, and no statement begins with a name but this one. -/
theorem block_assign (reads : TermAt t) {x : Name}
    (free : ∀ r ∈ reserved, x.text ≠ Text.ofString r)
    (enough : 16 * (Statement.assign x t).tokens.length ≤ n) :
    block (n + 1) ((Statement.assign x t).tokens ++ rest) =
      (block n >>= fun b => pure (Statement.assign (.plain x.text) t.spoken :: b)) rest := by
  have other {r : String} (listed : r ∈ reserved) : Token.word x.text ≠ .word r :=
    fun same => free r listed (Token.word.inj same)
  simp only [Statement.tokens, Block.assignmentTokens, List.length_cons,
    List.length_append] at enough
  rw [Statement.tokens, Block.assignmentTokens, block]
  simp only [List.cons_append, List.append_assoc, List.nil_append]
  refine bind_some (accept_other (other (by decide))) ?_
  refine bind_some (accept_other (other (by decide))) ?_
  refine bind_some (accept_other (other (by decide))) ?_
  refine bind_some (accept_other (other (by decide))) ?_
  refine bind_some (a := some (.word x.text)) rfl ?_
  dsimp only
  rw [if_neg (free "return" (by decide))]
  refine bind_some (a := .word x.text) rfl ?_
  exact bind_some (reads.assigned (by omega)) rfl

end Statements

end Reading

theorem Statement.tokens_pos (statement : Statement) : 0 < statement.tokens.length := by
  cases statement <;> simp [Statement.tokens, Block.assignmentTokens]

open Reading in
mutual

/-- The tokens of a legible statement are read as the statement that they speak, and the block
goes on. -/
theorem Statement.reads_tokens {statement : Statement} (legible : statement.Legible)
    (free : ∀ x ∈ statement.mentions, ∀ r ∈ reserved, x.text ≠ Text.ofString r) {n : Nat}
    {rest : List Token} (enough : 16 * statement.tokens.length ≤ n) :
    block (n + 1) (statement.tokens ++ rest) =
      (block n >>= fun b => pure (statement.spoken :: b)) rest := by
  cases statement with
  | declare x type value =>
    rw [Statement.Legible] at legible
    rw [Statement.mentions] at free
    have value := (Term.readsBack legible.2.1 (List.forall_mem_cons.1 free).2).term legible.2.2
    rw [Statement.spoken]
    exact block_declare value legible.1 enough
  | reserve x type =>
    rw [Statement.Legible] at legible
    rw [Statement.spoken]
    exact block_reserve legible x
  | assign x value =>
    rw [Statement.Legible] at legible
    rw [Statement.mentions] at free
    obtain ⟨here, others⟩ := List.forall_mem_cons.1 free
    rw [Statement.spoken]
    exact block_assign ((Term.readsBack legible.1 others).term legible.2) here enough
  | branch test yes no =>
    rw [Statement.Legible] at legible
    rw [Statement.mentions] at free
    obtain ⟨freeTest, others⟩ := List.forall_mem_append.1 free
    obtain ⟨freeYes, freeNo⟩ := List.forall_mem_append.1 others
    have test := (Term.readsBack legible.1.1 freeTest).term legible.1.2
    simp only [Statement.tokens, List.length_cons, List.length_append] at enough
    rw [Statement.tokens, Statement.spoken, block]
    simp only [List.cons_append, List.append_assoc, List.nil_append]
    refine bind_some (a := false) rfl ?_
    refine bind_some (a := false) rfl ?_
    refine bind_some (a := true) rfl ?_
    refine bind_some (a := ()) rfl ?_
    refine bind_some (test (by omega) (.ends (by decide))) ?_
    refine bind_some (a := ()) rfl ?_
    refine bind_some (a := ()) rfl ?_
    refine bind_some (Block.reads_tokens legible.2.1 freeYes (by omega) (.closed _)) ?_
    refine bind_some (a := ()) rfl ?_
    refine bind_some (a := ()) rfl ?_
    refine bind_some (a := ()) rfl ?_
    refine bind_some (Block.reads_tokens legible.2.2 freeNo (by omega) (.closed _)) ?_
    exact bind_some (a := ()) rfl rfl
  | attempt x value otherwise =>
    rw [Statement.Legible] at legible
    rw [Statement.mentions] at free
    obtain ⟨-, others⟩ := List.forall_mem_cons.1 free
    obtain ⟨freeValue, freeHandler⟩ := List.forall_mem_append.1 others
    have value := (Term.readsBack legible.1.1 freeValue).term legible.1.2
    simp only [Statement.tokens, Block.assignmentTokens, List.length_cons,
      List.length_append] at enough
    rw [Statement.tokens, Statement.spoken, Block.assignmentTokens, block]
    simp only [List.cons_append, List.append_assoc, List.nil_append]
    refine bind_some (a := false) rfl ?_
    refine bind_some (a := false) rfl ?_
    refine bind_some (a := false) rfl ?_
    refine bind_some (a := true) rfl ?_
    refine bind_some (a := ()) rfl ?_
    refine bind_some (a := x.text) rfl ?_
    refine bind_some (value.assigned (by omega)) ?_
    refine bind_some (a := ()) rfl ?_
    refine bind_some (a := ()) rfl ?_
    refine bind_some (a := ()) rfl ?_
    refine bind_some (Block.reads_tokens legible.2 freeHandler (by omega) (.closed _)) ?_
    exact bind_some (a := ()) rfl rfl

/-- The tokens of a legible block are read as the block that they speak. -/
theorem Block.reads_tokens {b : Block} (legible : b.Legible)
    (free : ∀ x ∈ b.mentions, ∀ r ∈ reserved, x.text ≠ Text.ofString r) {n : Nat}
    {rest : List Token} (enough : 16 * b.tokens.length < n) (ends : BlockEnd rest) :
    block n (b.tokens ++ rest) = some (b.spoken, rest) := by
  obtain ⟨n, rfl⟩ : ∃ k, n = k + 1 := ⟨n - 1, by omega⟩
  cases b with
  | nil =>
    rw [Block.tokens, Block.spoken]
    exact block_end ends
  | cons statement more =>
    rw [Block.Legible] at legible
    rw [Block.mentions] at free
    obtain ⟨here, later⟩ := List.forall_mem_append.1 free
    simp only [Block.tokens, List.length_append] at enough
    have some := statement.tokens_pos
    rw [Block.tokens, Block.spoken, List.append_assoc,
      Statement.reads_tokens legible.1 here (by omega)]
    exact bind_some (Block.reads_tokens legible.2 later (by omega) ends) rfl

end

/-! ## Units -/

theorem FactoryStatement.tokens_pos (f : FactoryStatement) : 0 < f.tokens.length := by
  cases f <;> exact Nat.succ_pos _

/-- The texts of the names that a unit can use are no words that the reader knows: those of inputs
are not reserved, the formatters have other names, and all others have a dollar sign. -/
theorem Name.Usable.free {inputs : List Input}
    (fine : ∀ input ∈ inputs, Input.isReserved input.name = false) {x : Name}
    (usable : x.Usable inputs) : ∀ r ∈ Reading.reserved, x.text ≠ Text.ofString r := by
  have taken : ∀ r ∈ Reading.reserved, Input.isReserved (Text.ofString r) = true := by decide
  have plain : ∀ r ∈ Reading.reserved, Text.dollar ∉ Text.ofString r := by decide
  intro r listed same
  cases usable with
  | input inside =>
    rw [Name.text] at same
    exact Bool.false_ne_true ((fine _ inside).symm.trans (same ▸ taken r listed))
  | declaration d =>
    cases d with
    | formatter k =>
      have other : ∀ r ∈ Reading.reserved, (Name.formatter k).text ≠ Text.ofString r := by
        cases k <;> decide
      exact other r listed same
    | dateConstant t => exact plain r listed (same ▸ Name.dollar_mem_dateConstant t)
  | numbered => exact plain r listed (same ▸ Name.dollar_mem_fresh _ _)

namespace Reading

variable {n : Nat} {rest : List Token}

/-- The parameters of a function are read as their names. -/
theorem parameters_names (names : List Text) (enough : names.length < n) :
    parameters n (Token.parameters names ++ .mark ")" :: rest) = some (names, rest) := by
  induction names generalizing n with
  | nil =>
    obtain ⟨n, rfl⟩ : ∃ k, n = k + 1 := ⟨n - 1, by omega⟩
    rfl
  | cons x names ih =>
    obtain ⟨n, rfl⟩ : ∃ k, n = k + 1 := ⟨n - 1, by omega⟩
    rcases names with _ | ⟨y, names⟩
    · rfl
    · rw [List.length_cons] at enough
      show (parameters n >>= fun xs => pure (x :: xs))
        (Token.parameters (y :: names) ++ .mark ")" :: rest) = _
      exact bind_some (ih (by omega)) rfl

/-- The terms of a list up to its bracket. -/
theorem items_list {ts : List Term} (reads : ∀ t ∈ ts, TermAt t) {fuel : Nat}
    (deep : 16 * (Token.commas (ts.map Term.tokens)).length ≤ fuel) (enough : ts.length < n) :
    returned.items fuel n (Token.commas (ts.map Term.tokens) ++ .mark "]" :: rest) =
      some (ts.map Term.spoken, rest) := by
  induction ts generalizing n with
  | nil =>
    obtain ⟨n, rfl⟩ : ∃ k, n = k + 1 := ⟨n - 1, by omega⟩
    rfl
  | cons t ts ih =>
    obtain ⟨here, others⟩ := List.forall_mem_cons.1 reads
    obtain ⟨n, rfl⟩ : ∃ k, n = k + 1 := ⟨n - 1, by omega⟩
    rw [List.length_cons] at enough
    rw [returned.items]
    rcases ts with _ | ⟨u, ts⟩
    · have begins := (begins_tokens t).append (.mark "]" :: rest)
      refine bind_some (begins.accept_mark (by decide)) ?_
      exact bind_some (here deep (.ends (by decide))) rfl
    · have shape : Token.commas ((t :: u :: ts).map Term.tokens) =
          t.tokens ++ .mark "," :: Token.commas ((u :: ts).map Term.tokens) := rfl
      rw [shape] at deep ⊢
      simp only [List.length_append, List.length_cons] at deep
      rw [List.append_assoc, List.cons_append]
      have begins := (begins_tokens t).append
        (.mark "," :: (Token.commas ((u :: ts).map Term.tokens) ++ .mark "]" :: rest))
      refine bind_some (begins.accept_mark (by decide)) ?_
      refine bind_some (here (by omega) (.ends (by decide))) ?_
      refine bind_some (a := true) rfl ?_
      exact bind_some (ih others (by omega) (by omega)) rfl

/-- Pieces that are not empty are no more than the tokens of their list. -/
theorem length_commas {tss : List (List Token)} (some : ∀ ts ∈ tss, 0 < ts.length) :
    tss.length ≤ (Token.commas tss).length := by
  induction tss with
  | nil => exact Nat.le_refl _
  | cons ts tss ih =>
    obtain ⟨pos, some⟩ := List.forall_mem_cons.1 some
    rcases tss with _ | ⟨us, tss⟩
    · exact pos
    · have := ih some
      simp only [Token.commas, List.length_append, List.length_cons] at this ⊢
      omega

/-- What a unit returns is read as a term or as a list of terms. -/
theorem returned_tokens {r : Returned} (reads : ∀ t ∈ r.terms, TermAt t)
    (enough : 16 * r.tokens.length ≤ n) :
    returned n (r.tokens ++ .mark ";" :: rest) = some (r.spoken, .mark ";" :: rest) := by
  cases r with
  | term t =>
    have begins := (begins_tokens t).append (.mark ";" :: rest)
    rw [returned]
    refine bind_some (begins.accept_mark (by decide)) ?_
    exact bind_some (reads t List.mem_cons_self enough (.ends (by decide))) rfl
  | list ts =>
    have few := length_commas
      (List.forall_mem_map.2 fun t (_ : t ∈ ts) => (begins_tokens t).length_pos)
    simp only [Returned.tokens, List.length_cons, List.length_append, List.length_map]
      at enough few
    rw [Returned.tokens, List.cons_append, List.append_assoc, returned]
    refine bind_some (a := true) rfl ?_
    exact bind_some (@items_list _ _ ts reads _ (by omega) (by omega)) rfl

section Factories

variable {inputs : List Input} (fine : ∀ input ∈ inputs, Input.isReserved input.name = false)

include fine

/-- The statements of a factory are told apart by their first tokens. -/
theorem factoryStatement_tokens {f : FactoryStatement} (legible : f.Legible inputs)
    (enough : 16 * f.tokens.length ≤ n) :
    factory.factoryStatement n (f.tokens ++ rest) = some (f.spoken, rest) := by
  have free := legible.usable.free fine
  have names : ∀ x ∈ f.term.names, ∀ r ∈ reserved, x.text ≠ Text.ofString r := by
    rw [legible.closed]
    exact List.forall_mem_nil _
  have reads : TermAt f.term := (Term.readsBack legible.term names).term legible.whole
  rw [factory.factoryStatement]
  cases f with
  | constant x value =>
    obtain ⟨t, rfl⟩ := legible.dates x value rfl
    have value := @reads n (.mark ";" :: rest)
    simp only [FactoryStatement.tokens, List.length_cons, List.length_append] at enough
    simp only [FactoryStatement.term] at value
    simp only [FactoryStatement.tokens, List.cons_append, List.append_assoc, List.nil_append]
    refine bind_some (a := true) rfl ?_
    refine bind_some (a := x.text) rfl ?_
    refine bind_some (a := none) rfl ?_
    refine bind_some (a := ()) rfl ?_
    refine bind_some (a := (Term.call .makeDate t).tokens ++ .mark ";" :: rest) rfl ?_
    exact bind_some (value (by omega) (.ends (by decide))) rfl
  | formatter x pattern =>
    have pattern := @reads n (.mark ")" :: .mark ";" :: rest)
    simp only [FactoryStatement.term] at pattern
    simp only [FactoryStatement.tokens, List.length_cons, List.length_append] at enough
    simp only [FactoryStatement.tokens, List.cons_append, List.append_assoc, List.nil_append]
    refine bind_some (a := true) rfl ?_
    refine bind_some (a := x.text) rfl ?_
    refine bind_some (a := none) rfl ?_
    refine bind_some (a := ()) rfl ?_
    refine bind_some (a := .word "runtime" :: .mark "." :: .word "createFormatter" :: _) rfl ?_
    refine bind_some (a := ()) rfl ?_
    refine bind_some (a := ()) rfl ?_
    exact bind_some (pattern (by omega) (.ends (by decide))) rfl
  | setZone x zone =>
    have other : Token.word x.text ≠ .word "const" := fun same =>
      free "const" (by decide) (Token.word.inj same)
    have zone := @reads n (.mark ")" :: .mark ";" :: rest)
    simp only [FactoryStatement.term] at zone
    simp only [FactoryStatement.tokens, List.length_cons, List.length_append] at enough
    simp only [FactoryStatement.tokens, List.cons_append, List.append_assoc, List.nil_append]
    refine bind_some (accept_other other) ?_
    refine bind_some (a := x.text) rfl ?_
    refine bind_some (a := ()) rfl ?_
    refine bind_some (a := ()) rfl ?_
    refine bind_some (a := ()) rfl ?_
    exact bind_some (zone (by omega) (.ends (by decide))) rfl

/-- The statements of a factory, up to its result. -/
theorem factory_tokens {fs : List FactoryStatement} (legible : ∀ f ∈ fs, f.Legible inputs)
    {us : List Token} {result : FactoryResult} {least : Nat}
    (last : ∀ fuel, least ≤ fuel → factoryResult fuel us = some (result, rest))
    (enough : least + 16 * (fs.flatMap FactoryStatement.tokens).length < n) :
    factory n (fs.flatMap FactoryStatement.tokens ++ .word "return" :: us) =
      some (⟨fs.map FactoryStatement.spoken, result⟩, rest) := by
  induction fs generalizing n with
  | nil =>
    obtain ⟨n, rfl⟩ : ∃ k, n = k + 1 := ⟨n - 1, by omega⟩
    rw [factory]
    refine bind_some (a := true) rfl ?_
    exact bind_some (last n (by omega)) rfl
  | cons f fs ih =>
    obtain ⟨here, legible⟩ := List.forall_mem_cons.1 legible
    have some := f.tokens_pos
    simp only [List.flatMap_cons, List.length_append] at enough
    obtain ⟨n, rfl⟩ : ∃ k, n = k + 1 := ⟨n - 1, by omega⟩
    have goesOn : ∀ us, acceptWord "return" (f.tokens ++ us) = .some (false, f.tokens ++ us) := by
      intro us
      cases f with
      | constant x value => rfl
      | formatter x pattern => rfl
      | setZone x zone =>
        exact accept_other fun same =>
          here.usable.free fine "return" (by decide) (Token.word.inj same)
    rw [List.flatMap_cons, List.append_assoc, factory]
    refine bind_some (goesOn _) ?_
    refine bind_some (factoryStatement_tokens fine here (by omega)) ?_
    exact bind_some (ih legible (by omega)) rfl

end Factories

end Reading

section Units

open Reading

variable {inputs : List Input} (fine : ∀ input ∈ inputs, Input.isReserved input.name = false)
  {u : GeneratedUnit} (legible : u.Legible inputs) {n : Nat}

include fine legible

/-- The function of a unit is read as the result of its factory. -/
theorem GeneratedUnit.factoryResult_tokens {rest : List Token}
    (enough : 16 * u.functionTokens.length ≤ n) :
    factoryResult n (u.functionTokens ++ rest) = some (u.spoken.result, rest) := by
  have free : ∀ x ∈ u.mentions, ∀ r ∈ reserved, x.text ≠ Text.ofString r :=
    fun x mentioned => (legible.usable x mentioned).free fine
  obtain ⟨freeBody, freeReturns⟩ := List.forall_mem_append.1 free
  have returned : ∀ t ∈ u.returns.terms, TermAt t := by
    intro t listed
    obtain ⟨readable, whole⟩ := legible.returns t listed
    have reads := Term.readsBack readable fun x read =>
      freeReturns x (List.mem_flatMap.2 ⟨t, listed, read⟩)
    exact reads.term whole
  have few := @length_commas (u.inputs.map fun x => [.word x, .mark ":", .word "any"])
    (List.forall_mem_map.2 fun _ _ => Nat.succ_pos _)
  rw [List.length_map] at few
  simp only [GeneratedUnit.functionTokens, Token.parameters, List.length_cons,
    List.length_append] at enough
  rw [GeneratedUnit.functionTokens, factoryResult]
  simp only [List.cons_append, List.append_assoc, List.nil_append]
  refine bind_some (a := true) rfl ?_
  refine bind_some (a := ("evaluate" : Text)) rfl ?_
  refine bind_some (a := ()) rfl ?_
  refine bind_some (parameters_names u.inputs (by omega)) ?_
  refine bind_some (a := ()) rfl ?_
  refine bind_some (Block.reads_tokens legible.body freeBody (by omega) (.returned _)) ?_
  refine bind_some (a := ()) rfl ?_
  exact bind_some (returned_tokens returned (by omega)) rfl

/-- A legible unit is read as its one item, the factory. -/
theorem GeneratedUnit.items_tokens (enough : 16 * u.tokens.length ≤ n) :
    items n u.tokens = some ([.factory "createEvaluator" u.spoken], []) := by
  simp only [GeneratedUnit.tokens, Token.parameters, Token.commas, List.map_cons, List.map_nil,
    List.length_cons, List.length_append] at enough
  obtain ⟨n, rfl⟩ : ∃ k, n = k + 2 := ⟨n - 2, by omega⟩
  have inner := @factory_tokens (n + 1) [.mark "\x7d"] _ fine _ legible.factory _ _ _
    (fun fuel => GeneratedUnit.factoryResult_tokens fine legible) (by omega)
  rw [GeneratedUnit.tokens, items]
  refine bind_some (a := .word "export" :: _) rfl ?_
  refine bind_some (a := false) rfl ?_
  refine bind_some (a := ()) rfl ?_
  refine bind_some (a := false) rfl ?_
  refine bind_some (a := ()) rfl ?_
  refine bind_some (a := ("createEvaluator" : Text)) rfl ?_
  refine bind_some (a := ()) rfl ?_
  refine bind_some (parameters_names ["runtime"] (show 1 < n + 1 by omega)) ?_
  refine bind_some (a := ()) rfl ?_
  refine bind_some inner ?_
  refine bind_some (a := ()) rfl ?_
  exact bind_some (a := []) rfl rfl

end Units

end RowExpr
