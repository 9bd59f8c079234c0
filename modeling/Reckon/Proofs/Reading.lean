import Reckon.Command
import Reckon.Proofs.Halt
import Reckon.Proofs.Lossless
import Reckon.Proofs.Precedence

/-!
# Reckon — reading never fails behind a source

A derivation that was put together by hand may hold a number or an operator whose text is none. One
that was matched from a source does not, because the tokens of a source are *legible*: an operator
is written with its symbol, and what was read as a number can be read as a number again. So all
that can be wrong with a source is found while its tokens are matched.

There are several ways into the front end, and they take the name of the source from different
places. They agree: on which sources are good, on the statements of these, and on the fault of the
others.

* `legible_of_mem_tokenize`, `Derivation.exists_program` — why nothing is left to fail.
* `parse_agrees` — matching and parsing, and what the command shows of them.
-/

namespace Reckon

open Text

-- ---------------------------------------------------------------------------
-- Numbers
-- ---------------------------------------------------------------------------

/-- A text that begins with a digit is read without regard to signs. -/
theorem Numeral.read?_of_digit {text : List Char} (h : ∀ c ∈ text.head?, c.isDigit = true) :
    read? (String.ofList text) = unsigned? text := by
  rw [read?, String.toList_ofList]
  split
  · exact absurd (h '+' rfl) (by decide)
  · exact absurd (h '-' rfl) (by decide)
  · rfl

namespace Lexeme

variable {c : Char} {after : List Char}

/-- Only digits begin a number. -/
theorem isDigit_of_number (h : (first c after).kind = some .number) :
    c.isDigit = true ∧ first c after = number c after := by
  obtain ⟨hlayout, hcomment⟩ := not_comment_of_kind h
  rw [first_eq_solid hlayout hcomment] at h ⊢
  unfold solid at h ⊢
  split at h
  · exact absurd (kind_of_word h) (by decide)
  · next hletter =>
    rw [if_neg hletter]
    split at h
    · next hdigit => exact ⟨hdigit, if_pos hdigit⟩
    · unfold symbol at h
      split at h <;> exact absurd (Option.some.inj h) (by decide)

/-- Behind the point of a fraction are digits and nothing else. -/
theorem places_fraction (text : List Char) : (Numeral.places (fraction text).1).2 = [] := by
  unfold fraction
  split
  · next d later =>
    split
    · next hd =>
      have hall : ∀ x ∈ d :: later.takeWhile Char.isDigit, x.isDigit = true :=
        List.forall_mem_cons.mpr ⟨hd, fun _ hx => List.mem_takeWhile_imp hx⟩
      exact List.dropWhile_eq_nil_iff.mpr hall
    · rfl
  · rfl

/-- The text of a number is a decimal numeral without a sign. -/
theorem read?_number (hc : c.isDigit = true) (after : List Char) :
    ∃ decimal : Decimal,
      Numeral.read? (String.ofList (number c after).text) = some decimal.toDouble := by
  obtain ⟨-, hstop⟩ := fraction_text (after.dropWhile Char.isDigit)
  have hdigits : ∀ d ∈ c :: after.takeWhile Char.isDigit, d.isDigit = true :=
    List.forall_mem_cons.mpr ⟨hc, fun _ hd => List.mem_takeWhile_imp hd⟩
  obtain ⟨decimal, hdecimal⟩ :
      ∃ decimal, Numeral.decimal? (number c after).text = some decimal := by
    -- the digits of the whole part end where the fraction begins, or where the number does
    have htake : (number c after).text.takeWhile Char.isDigit =
        c :: after.takeWhile Char.isDigit := by
      rw [number, takeWhile_append_of_head hstop, List.takeWhile_eq_self_iff.mpr hdigits]
    have hdrop : (number c after).text.dropWhile Char.isDigit =
        (fraction (after.dropWhile Char.isDigit)).1 := by
      rw [number, dropWhile_append_of_head hstop, List.dropWhile_eq_nil_iff.mpr hdigits]
      rfl
    rw [Numeral.decimal?, htake, hdrop, if_neg (by simp), places_fraction]
    exact ⟨_, rfl⟩
  refine ⟨decimal, ?_⟩
  have hhead : ∀ d ∈ (number c after).text.head?, d.isDigit = true := by
    rintro _ ⟨⟩
    exact hc
  rw [Numeral.read?_of_digit hhead, Numeral.unsigned?, hdecimal]

end Lexeme

-- ---------------------------------------------------------------------------
-- Legible tokens
-- ---------------------------------------------------------------------------

/-- The token is written as its kind demands, and a number is written as a decimal numeral without
a sign. -/
structure Token.Legible (token : Token) : Prop where
  spelled : token.Spelled
  number  : token.kind = .number →
              ∃ decimal : Decimal, Numeral.read? token.text = some decimal.toDouble

/-- All tokens of a source are legible. -/
theorem legible_of_mem_tokenize {source file : String} {token : Token}
    (h : token ∈ tokenize source file) : token.Legible where
  spelled := spelled_of_mem_tokenize h
  number := by
    intro hkind
    obtain ⟨own, hown, htext⟩ := singleToken_of_mem_scan h (by rw [hkind]; decide)
    obtain ⟨c, after, rfl, hfirst⟩ := hown
    rw [hkind] at hfirst
    obtain ⟨hdigit, hnumber⟩ := Lexeme.isDigit_of_number (congrArg Lexeme.kind hfirst)
    rw [hnumber] at hfirst
    have hread := Lexeme.read?_number hdigit after
    rw [hfirst] at hread
    rw [htext]
    exact hread

namespace Token.Legible

variable {token : Token}

theorem exists_binaryOp (h : token.Legible) {level : Level}
    (hkind : token.kind ∈ level.operators) : ∃ op : BinaryOp, token.text = op.symbol := by
  obtain ⟨op, hop, -⟩ := BinaryOp.exists_of_level? (Kind.mem_operators_iff.mp hkind)
  exact ⟨op, h.spelled op.symbol (by rw [← hop, op.spelling?_kind])⟩

theorem exists_unaryOp (h : token.Legible) (hkind : token.kind ∈ Kind.unaryOperators) :
    ∃ op : UnaryOp, token.text = op.symbol := by
  obtain ⟨op, hop⟩ := UnaryOp.exists_of_mem hkind
  exact ⟨op, h.spelled op.symbol (by rw [← hop, op.spelling?_kind])⟩

end Token.Legible

-- ---------------------------------------------------------------------------
-- Derivations of legible tokens
-- ---------------------------------------------------------------------------

/-- A phrase of legible tokens is read as some expression. -/
theorem Phrase.exists_expr {l : Nat} {x : Phrase l} (hwell : x.WellKinded)
    (hlegible : ∀ token ∈ x.tokens, token.Legible) : ∃ e, x.expr = .ok e := by
  -- on the phrase; only its numbers and operators could fail, and these are legible
  induction x with
  | identifier id => exact ⟨_, expr_identifier_eq_ok_iff.mpr rfl⟩
  | numeral token =>
    obtain ⟨decimal, hread⟩ := (hlegible token (List.mem_singleton_self _)).number hwell
    exact ⟨_, expr_numeral_eq_ok_iff.mpr ⟨_, hread, rfl⟩⟩
  | parens opening body closing ih =>
    simp only [tokens, List.forall_mem_append, List.forall_mem_cons] at hlegible
    exact ih hwell.2.1 hlegible.1.2
  | unary token operand ih =>
    rw [tokens, List.forall_mem_cons] at hlegible
    obtain ⟨op, hop⟩ := hlegible.1.exists_unaryOp hwell.1
    obtain ⟨inner, hinner⟩ := ih hwell.2 hlegible.2
    exact ⟨_, expr_unary_eq_ok_iff.mpr ⟨op, hop, inner, hinner, rfl⟩⟩
  | primary inner ih => exact ih hwell hlegible
  | power base token exponent ihbase ihexponent =>
    obtain ⟨hbase, hkind, hexponent⟩ := hwell
    rw [tokens, List.forall_mem_append, List.forall_mem_cons] at hlegible
    obtain ⟨hbaseLegible, htoken, hexponentLegible⟩ := hlegible
    obtain ⟨left, hleft⟩ := ihbase hbase hbaseLegible
    obtain ⟨right, hright⟩ := ihexponent hexponent hexponentLegible
    have hmember : token.kind ∈ Level.exponent.operators := by
      rw [hkind]
      exact List.mem_singleton_self _
    obtain ⟨op, hop⟩ := htoken.exists_binaryOp hmember
    exact ⟨_, expr_power_eq_ok_iff.mpr ⟨left, hleft, right, hright, op, hop, rfl⟩⟩
  | single operand ih => exact ih hwell hlegible
  | chain first token last ihfirst ihlast =>
    obtain ⟨hfirst, hkind, hlast⟩ := hwell
    rw [tokens, List.forall_mem_append, List.forall_mem_cons] at hlegible
    obtain ⟨hfirstLegible, htoken, hlastLegible⟩ := hlegible
    obtain ⟨left, hleft⟩ := ihfirst hfirst hfirstLegible
    obtain ⟨right, hright⟩ := ihlast hlast hlastLegible
    obtain ⟨op, hop⟩ := htoken.exists_binaryOp hkind
    exact ⟨_, expr_chain_eq_ok_iff.mpr ⟨left, hleft, right, hright, op, hop, rfl⟩⟩

theorem Clause.exists_statement {clause : Clause} (hwell : clause.WellKinded)
    (hlegible : ∀ token ∈ clause.tokens, token.Legible) :
    ∃ statement, clause.statement = .ok statement := by
  cases clause with
  | declare keyword id eq exp =>
    simp only [tokens, List.forall_mem_cons] at hlegible
    obtain ⟨value, hvalue⟩ := Phrase.exists_expr hwell.2.2.2 hlegible.2.2.2
    exact ⟨_, statement_declare_eq_ok_iff.mpr ⟨value, hvalue, rfl⟩⟩
  | assign id eq exp =>
    simp only [tokens, List.forall_mem_cons] at hlegible
    obtain ⟨value, hvalue⟩ := Phrase.exists_expr hwell.2.2 hlegible.2.2
    exact ⟨_, statement_assign_eq_ok_iff.mpr ⟨value, hvalue, rfl⟩⟩
  | print keyword exp =>
    rw [tokens, List.forall_mem_cons] at hlegible
    obtain ⟨value, hvalue⟩ := Phrase.exists_expr hwell.2 hlegible.2
    exact ⟨_, statement_print_eq_ok_iff.mpr ⟨value, hvalue, rfl⟩⟩

/-- A derivation of legible tokens is read as a program of as many statements. -/
theorem Derivation.exists_program {derivation : Derivation} (hwell : derivation.WellKinded)
    (hlegible : ∀ token ∈ derivation.tokens, token.Legible) :
    ∃ program, derivation.program = .ok program ∧ program.length = derivation.clauses.length := by
  have hclauses : ∀ clauses : List Clause, (∀ clause ∈ clauses, clause ∈ derivation.clauses) →
      ∃ statements, List.Forall₂ (fun clause statement => clause.statement = .ok statement)
        clauses statements := by
    intro clauses hmem
    induction clauses with
    | nil => exact ⟨[], .nil⟩
    | cons clause clauses ih =>
      rw [List.forall_mem_cons] at hmem
      obtain ⟨statements, hstatements⟩ := ih hmem.2
      have hclause : ∀ token ∈ clause.tokens, token.Legible := fun token htoken =>
        hlegible token (List.mem_flatMap.mpr ⟨clause, hmem.1, htoken⟩)
      obtain ⟨statement, hstatement⟩ := Clause.exists_statement (hwell clause hmem.1) hclause
      exact ⟨statement :: statements, .cons hstatement hstatements⟩
  obtain ⟨statements, hstatements⟩ := hclauses derivation.clauses fun _ h => h
  exact ⟨⟨statements⟩, program_eq_ok_iff.mpr hstatements, hstatements.length_eq.symm⟩

-- ---------------------------------------------------------------------------
-- From matching to parsing
-- ---------------------------------------------------------------------------

variable {source file : String}

/-- The end token of a source is its last token, so it needs none. -/
theorem completed_tokenize (source file other : String) :
    completed (tokenize source file) other = tokenize source file := by
  obtain ⟨front, position, htokens, -⟩ := exists_tokenize_eq source file
  rw [completed, htokens, List.getLast?_concat]
  rfl

/-- So how a source is matched does not depend on the name that is given for a list without any
token. -/
theorem matchTokens_tokenize_outcome (source file other : String) :
    (matchTokens (tokenize source file) other).outcome =
      (matchTokens (tokenize source file) file).outcome := by
  rw [matchTokens_outcome, matchTokens_outcome, Derivation.ofTokens, Derivation.ofTokens,
    completed_tokenize, completed_tokenize]

/-- A derivation of a source can be read, as a program of as many statements. -/
theorem exists_program_of_matchTokens {derivation : Derivation}
    (h : (matchTokens (tokenize source file) file).outcome = .ok derivation) :
    ∃ program, derivation.program = .ok program ∧ program.length = derivation.clauses.length := by
  have hcovers := covers_of_matchTokens h
  refine Derivation.exists_program hcovers.wellKinded ?_
  intro token htoken
  rw [hcovers.yield] at htoken
  exact legible_of_mem_tokenize (List.takeWhile_subset _ htoken)

/-- The tokens of a source are not matched exactly if they halt, and with what. -/
theorem matchTokens_tokenize_eq_error_iff {stop : Stop} :
    (matchTokens (tokenize source file) file).outcome = .error stop ↔
      ∃ taken stage found, Halt (tokenize source file) taken stage found ∧
        stop = .fault (stage.fault found) := by
  constructor
  · intro hmatch
    have hhalt := exists_halt_of_matchTokens hmatch
    rw [completed_tokenize] at hhalt
    exact hhalt
  · intro hexists
    obtain ⟨taken, stage, found, hhalt, rfl⟩ := hexists
    rw [← completed_tokenize source file file] at hhalt
    exact hhalt.matchTokens

/-- The fault of a source stands in the source. -/
theorem Halt.fault_eq {taken : List Token} {stage : Stage} {found : Token}
    (h : Halt (tokenize source file) taken stage found) :
    stage.fault found =
      ⟨.unexpected (stage.kinds.map Kind.describe) found.describe,
        ⟨found.span.start.offset, file⟩⟩ := by
  have hmem := List.mem_of_getElem? h.getElem?
  have hfile := ((lossless_tokenize source file).named found hmem).1
  rw [Stage.fault, ← hfile]

/-- A source is not parsed exactly if its tokens are not matched, and for the same reason. -/
theorem parse_outcome_eq_error_iff {stop : Stop} :
    (parse source file).outcome = .error stop ↔
      (matchTokens (tokenize source file) file).outcome = .error stop := by
  cases hmatch : (matchTokens (tokenize source file) file).outcome with
  | ok derivation =>
    obtain ⟨program, hprogram, -⟩ := exists_program_of_matchTokens hmatch
    have hparse := parse_outcome_eq_ok_iff.mpr ⟨derivation, hmatch, hprogram⟩
    simp [hparse]
  | error reason => simp [parse, derive, hmatch]

-- ---------------------------------------------------------------------------
-- The ways into the front end
-- ---------------------------------------------------------------------------

/-- Matching and parsing came out alike: as a derivation and the program it is read as, with as many
statements, or with the same fault, which is an unexpected token in the named source. -/
inductive Agree (file : String) : Except Stop Derivation → Except Stop Program → Prop
  | ok {derivation : Derivation} {program : Program} (hprogram : derivation.program = .ok program)
      (hlength : program.length = derivation.clauses.length) :
      Agree file (.ok derivation) (.ok program)
  | fault (expected : List String) (found : String) (offset : Nat) :
      Agree file (.error (.fault ⟨.unexpected expected found, ⟨offset, file⟩⟩))
        (.error (.fault ⟨.unexpected expected found, ⟨offset, file⟩⟩))

theorem agree_parse (source file : String) :
    Agree file (matchTokens (tokenize source file) file).outcome (parse source file).outcome := by
  cases hmatch : (matchTokens (tokenize source file) file).outcome with
  | ok derivation =>
    obtain ⟨program, hprogram, hlength⟩ := exists_program_of_matchTokens hmatch
    rw [parse_outcome_eq_ok_iff.mpr ⟨derivation, hmatch, hprogram⟩]
    exact .ok hprogram hlength
  | error stop =>
    rw [parse_outcome_eq_error_iff.mpr hmatch]
    obtain ⟨taken, stage, found, hhalt, rfl⟩ := matchTokens_tokenize_eq_error_iff.mp hmatch
    rw [hhalt.fault_eq]
    exact .fault _ _ _

/-- The command came out alike for two outputs: with the same status, and with the same words about
what is wrong. -/
def Visible.Alike (a b : Visible) : Prop := a.status = b.status ∧ a.complaint = b.complaint

/-- What agrees is shown alike. -/
theorem Agree.alike {settings : Settings}
    (h : Agree settings.sourceName (derive source settings.sourceName).outcome
      (parse source settings.sourceName).outcome) :
    (Command.runOn { settings with output := .derivation } source).Alike
      (Command.runOn { settings with output := .ast } source) := by
  have hname : ∀ output, Settings.sourceName { settings with output := output } =
      settings.sourceName := fun _ => rfl
  unfold Command.runOn
  simp only [hname, Command.print]
  generalize (derive source settings.sourceName).outcome = matched at h ⊢
  generalize (parse source settings.sourceName).outcome = parsed at h ⊢
  cases h with
  | ok hprogram hlength => exact ⟨rfl, rfl⟩
  | fault expected found offset => exact ⟨rfl, rfl⟩

/--
**The ways into the front end agree.** Matching the tokens of a source, by whichever name they are
called, comes out as deriving it, and agrees with parsing it; and the command shows both alike.
-/
theorem parse_agrees (source : String) (name : Option String) (other : String)
    (settings : Settings) :
    (derive source (name.getD defaultName)).outcome =
      (matchTokens (tokenize source (name.getD defaultName)) other).outcome ∧
    Agree (name.getD defaultName)
      (matchTokens (tokenize source (name.getD defaultName)) other).outcome
      (parse source (name.getD defaultName)).outcome ∧
    (Command.runOn { settings with output := .derivation } source).Alike
      (Command.runOn { settings with output := .ast } source) := by
  rw [matchTokens_tokenize_outcome]
  exact ⟨rfl, agree_parse source _, (agree_parse source settings.sourceName).alike⟩

end Reckon
