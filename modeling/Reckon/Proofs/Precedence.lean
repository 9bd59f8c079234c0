import Reckon.Proofs.Acceptance
import Reckon.Proofs.Building
import Reckon.Proofs.Printing

/-!
# Reckon — precedence and associativity

Precedence, associativity and parentheses are nowhere written down in the rules: they come out of
which rule calls which, of loops and recursion, and of a fold. Here they are compared with a
statement about trees and words that knows none of this: a source is parsed as a program exactly if
its tokens are a printing of the program.

One direction reads a phrase and finds its tokens to be a printing; the rank of what was read is at
most the rank of the phrase, unless it is in parentheses. The other one takes a printing and puts
together a phrase of the layer asked for. That the rules find this phrase, and no other, is known
already.

* `Phrase.printing_of_expr`, `Expr.Printing.exists_phrase` — the two directions, for expressions.
* `parse_eq_ok_iff` — the sources of a program are those whose tokens print it.
-/

namespace Reckon

-- ---------------------------------------------------------------------------
-- Words of a given kind
-- ---------------------------------------------------------------------------

namespace Token

variable {token : Token}

theorem word_of_kind {kind : Kind} (hkind : token.kind = kind) :
    token.word = ⟨kind, token.text⟩ := by
  rw [word, hkind]

/-- A kind that leaves no choice tells the word. -/
theorem Spelled.word_eq (h : token.Spelled) {kind : Kind} {text : String}
    (hkind : token.kind = kind) (hspelling : kind.spelling? = some text) :
    token.word = ⟨kind, text⟩ := by
  subst hkind
  rw [word, h text hspelling]

/-- A token of a level that is read as an operator is the word of this operator. -/
theorem Spelled.word_of_binary (h : token.Spelled) {level : Level} {op : BinaryOp}
    (hkind : token.kind ∈ level.operators) (htext : token.text = op.symbol) :
    token.word = op.word ∧ op.level = level := by
  obtain ⟨meant, hmeant, hlevel⟩ := BinaryOp.exists_of_level? (Kind.mem_operators_iff.mp hkind)
  have hword := h.word_eq hmeant.symm meant.spelling?_kind
  obtain rfl : op = meant := by
    apply BinaryOp.symbol_injective
    rw [← htext]
    exact congrArg Word.text hword
  exact ⟨hword, hlevel⟩

/-- A unary operator that is read as one is the word of it. -/
theorem Spelled.word_of_unary (h : token.Spelled) {op : UnaryOp}
    (hkind : token.kind ∈ Kind.unaryOperators) (htext : token.text = op.symbol) :
    token.word = op.word := by
  obtain ⟨meant, hmeant⟩ := UnaryOp.exists_of_mem hkind
  have hword := h.word_eq hmeant.symm meant.spelling?_kind
  obtain rfl : op = meant := by
    apply UnaryOp.symbol_injective
    rw [← htext]
    exact congrArg Word.text hword
  exact hword

end Token

-- ---------------------------------------------------------------------------
-- A phrase prints what it is read as
-- ---------------------------------------------------------------------------

namespace Phrase

/-- The highest rank of what the phrase may be read as, unless that is in parentheses. -/
def rank {l : Nat} : Phrase l → Nat
  | .identifier _ => 0
  | .numeral _ => 0
  | .parens _ _ _ => 0
  | .unary _ _ => 1
  | .primary _ => 2
  | .power _ _ _ => 2
  | @Phrase.single n _ => n + 3
  | @Phrase.chain n _ _ _ => n + 3

/-- From factors on, the layer alone decides. -/
theorem rank_eq {n : Nat} (x : Phrase (n + 1)) : x.rank = n + 2 := by
  cases x <;> rfl

/-- Of primaries, only unary operations do not hold together by themselves. -/
theorem rank_primary (x : Primary) : x.rank = if x.isUnary then 1 else 0 := by
  cases x <;> rfl

/-- The rank of an operator of a layer of chains. -/
theorem rank_of_chainLevel {op : BinaryOp} {n : Nat} (hn : n ≤ 2) (h : op.level = chainLevel n) :
    op.rank = n + 3 := by
  have hsum := op.tightness_add_rank
  rw [h] at hsum
  match n with
  | 0 => exact Nat.add_left_cancel hsum
  | 1 => exact Nat.add_left_cancel hsum
  | 2 => exact Nat.add_left_cancel hsum

/-- The tokens of a phrase print the expression that it is read as. -/
theorem printing_of_expr {l : Nat} {x : Phrase l} {e : Expr} (hl : l ≤ 4) (hwell : x.WellKinded)
    (hplain : x.PlainBases) (hspelled : ∀ token ∈ x.tokens, token.Spelled) (h : x.expr = .ok e) :
    ∃ enclosed, e.Printing enclosed (x.tokens.map Token.word) ∧
      (enclosed = false → e.rank ≤ x.rank) := by
  -- on the phrase; without parentheses an expression ranks no higher than the layer it is read at
  induction x generalizing e with
  | identifier id =>
    have hid : id.kind = .identifier := hwell
    obtain rfl := expr_identifier_eq_ok_iff.mp h
    refine ⟨false, ?_, fun _ => Nat.le_refl _⟩
    rw [tokens, List.map_singleton, Token.word_of_kind hid]
    exact .identifier id.text
  | numeral token =>
    have htoken : token.kind = .number := hwell
    obtain ⟨value, hvalue, rfl⟩ := expr_numeral_eq_ok_iff.mp h
    refine ⟨false, ?_, fun _ => Nat.le_refl _⟩
    rw [tokens, List.map_singleton, Token.word_of_kind htoken]
    exact .number hvalue
  | parens opening body closing ih =>
    obtain ⟨hopening, hbody, hclosing⟩ := hwell
    simp only [tokens, List.forall_mem_append, List.forall_mem_cons] at hspelled
    obtain ⟨⟨hopeningSpelled, hbodySpelled⟩, hclosingSpelled, -⟩ := hspelled
    obtain ⟨enclosed, hprinting, -⟩ := ih (by omega) hbody hplain hbodySpelled h
    refine ⟨true, ?_, fun himpossible => absurd himpossible (by decide)⟩
    rw [tokens, List.map_append, List.map_cons, List.map_singleton,
      hopeningSpelled.word_eq hopening rfl, hclosingSpelled.word_eq hclosing rfl]
    exact .enclose hprinting
  | unary token operand ih =>
    obtain ⟨hop, hoperand⟩ := hwell
    rw [tokens, List.forall_mem_cons] at hspelled
    obtain ⟨op, htext, inner, hinner, rfl⟩ := expr_unary_eq_ok_iff.mp h
    obtain ⟨enclosed, hprinting, hrank⟩ := ih (by omega) hoperand hplain hspelled.2 hinner
    rw [rank_eq] at hrank
    refine ⟨false, ?_, fun _ => Nat.le_refl _⟩
    rw [tokens, List.map_cons, hspelled.1.word_of_unary hop htext]
    exact .unary hprinting (Place.fits_iff.mpr hrank)
  | primary inner ih =>
    obtain ⟨enclosed, hprinting, hrank⟩ := ih (by omega) hwell hplain hspelled h
    refine ⟨enclosed, hprinting, ?_⟩
    intro hfalse
    have hinner := inner.rank_primary
    have hle := hrank hfalse
    show e.rank ≤ 2
    -- a unary operation ranks below the powers, and every other primary below it
    split at hinner <;> omega
  | power base token exponent ihbase ihexponent =>
    obtain ⟨hbase, hop, hexponent⟩ := hwell
    obtain ⟨hnotUnary, hbasePlain, hexponentPlain⟩ := hplain
    rw [tokens, List.forall_mem_append, List.forall_mem_cons] at hspelled
    obtain ⟨hbaseSpelled, htokenSpelled, hexponentSpelled⟩ := hspelled
    obtain ⟨left, hleft, right, hright, op, htext, rfl⟩ := expr_power_eq_ok_iff.mp h
    obtain ⟨leftEnclosed, hleftPrinting, hleftRank⟩ :=
      ihbase (by omega) hbase hbasePlain hbaseSpelled hleft
    obtain ⟨rightEnclosed, hrightPrinting, hrightRank⟩ :=
      ihexponent (by omega) hexponent hexponentPlain hexponentSpelled hright
    have hmember : token.kind ∈ Level.exponent.operators := by
      rw [hop]
      exact List.mem_singleton_self _
    obtain ⟨hword, hlevel⟩ := htokenSpelled.word_of_binary hmember htext
    obtain rfl : op = .power := BinaryOp.eq_power_of_level hlevel
    -- the base is no unary operation, so without parentheses it is a single word
    rw [rank_primary, hnotUnary] at hleftRank
    rw [rank_eq] at hrightRank
    refine ⟨false, ?_, fun _ => Nat.le_refl _⟩
    rw [tokens, List.map_append, List.map_cons, hword]
    exact .binary hleftPrinting (Place.fits_iff.mpr hleftRank) hrightPrinting
      (Place.fits_iff.mpr hrightRank)
  | single operand ih =>
    obtain ⟨enclosed, hprinting, hrank⟩ := ih (by omega) hwell hplain hspelled h
    refine ⟨enclosed, hprinting, ?_⟩
    intro hfalse
    have hle := hrank hfalse
    rw [rank_eq] at hle ⊢
    omega
  | @chain n first token last ihfirst ihlast =>
    obtain ⟨hfirst, hop, hlast⟩ := hwell
    obtain ⟨hfirstPlain, hlastPlain⟩ := hplain
    rw [tokens, List.forall_mem_append, List.forall_mem_cons] at hspelled
    obtain ⟨hfirstSpelled, htokenSpelled, hlastSpelled⟩ := hspelled
    obtain ⟨left, hleft, right, hright, op, htext, rfl⟩ := expr_chain_eq_ok_iff.mp h
    obtain ⟨leftEnclosed, hleftPrinting, hleftRank⟩ :=
      ihfirst hl hfirst hfirstPlain hfirstSpelled hleft
    obtain ⟨rightEnclosed, hrightPrinting, hrightRank⟩ :=
      ihlast (by omega) hlast hlastPlain hlastSpelled hright
    obtain ⟨hword, hlevel⟩ := htokenSpelled.word_of_binary hop htext
    have hrank := rank_of_chainLevel (by omega) hlevel
    -- the operators of chains are those of the looser levels
    have hpower : op ≠ .power := by
      rintro rfl
      exact absurd hrank (by rw [BinaryOp.rank_eq_two_iff.mpr rfl]; omega)
    rw [rank_eq] at hleftRank hrightRank
    refine ⟨false, ?_, ?_⟩
    · rw [tokens, List.map_append, List.map_cons, hword]
      -- on the left the same layer goes on, on the right only what binds more
      refine .binary hleftPrinting (Place.fits_iff.mpr ?_) hrightPrinting (Place.fits_iff.mpr ?_)
      · rw [Place.bound_left hpower, hrank]
        exact hleftRank
      · rw [Place.bound_right hpower, hrank]
        exact hrightRank
    · intro _
      rw [rank_eq]
      exact hrank.le

-- ---------------------------------------------------------------------------
-- A printing is made into a phrase
-- ---------------------------------------------------------------------------

/-- Every operator but the exponent joins the chains of one layer. -/
theorem exists_chainLevel {op : BinaryOp} (h : op ≠ .power) :
    ∃ n, n ≤ 2 ∧ op.kind ∈ (chainLevel n).operators ∧ op.rank = n + 3 := by
  have hmember : op.kind ∈ op.level.operators := Kind.mem_operators_iff.mpr op.level?_kind
  cases op with
  | equals => exact ⟨2, by decide, hmember, rfl⟩
  | plus => exact ⟨1, by decide, hmember, rfl⟩
  | minus => exact ⟨1, by decide, hmember, rfl⟩
  | times => exact ⟨0, by decide, hmember, rfl⟩
  | divide => exact ⟨0, by decide, hmember, rfl⟩
  | modulo => exact ⟨0, by decide, hmember, rfl⟩
  | power => exact absurd rfl h

/-- The phrase is one that the rules can find, made of the tokens and read as the expression. -/
structure StandsFor {l : Nat} (x : Phrase l) (tokens : List Token) (e : Expr) : Prop where
  wellKinded : x.WellKinded
  plainBases : x.PlainBases
  yield      : x.tokens = tokens
  expr       : x.expr = .ok e

namespace StandsFor

variable {front later : List Token} {token : Token} {left right : Expr}

theorem unary {operand : Factor} {op : UnaryOp} (h : operand.StandsFor later right)
    (hword : token.word = op.word) :
    (Phrase.unary token operand).StandsFor (token :: later) (.unary op right) := by
  obtain ⟨hkind, htext⟩ := Word.mk.inj hword
  refine ⟨⟨?_, h.wellKinded⟩, h.plainBases, congrArg (token :: ·) h.yield, ?_⟩
  · rw [hkind]
    exact op.kind_mem
  · exact expr_unary_eq_ok_iff.mpr ⟨op, htext, right, h.expr, rfl⟩

theorem power {base : Primary} {exponent : Factor} (hbase : base.StandsFor front left)
    (hplain : base.isUnary = false) (hword : token.word = BinaryOp.power.word)
    (hexponent : exponent.StandsFor later right) :
    (Phrase.power base token exponent).StandsFor (front ++ token :: later)
      (.binary .power left right) := by
  obtain ⟨hkind, htext⟩ := Word.mk.inj hword
  refine ⟨⟨hbase.wellKinded, hkind, hexponent.wellKinded⟩,
    ⟨hplain, hbase.plainBases, hexponent.plainBases⟩, ?_, ?_⟩
  · rw [Phrase.tokens, hbase.yield, hexponent.yield]
  · exact expr_power_eq_ok_iff.mpr
      ⟨left, hbase.expr, right, hexponent.expr, .power, htext, rfl⟩

theorem chain {n : Nat} {first : Phrase (n + 2)} {last : Phrase (n + 1)} {op : BinaryOp}
    (hfirst : first.StandsFor front left) (hword : token.word = op.word)
    (hop : op.kind ∈ (chainLevel n).operators) (hlast : last.StandsFor later right) :
    (Phrase.chain first token last).StandsFor (front ++ token :: later)
      (.binary op left right) := by
  obtain ⟨hkind, htext⟩ := Word.mk.inj hword
  refine ⟨⟨hfirst.wellKinded, ?_, hlast.wellKinded⟩, ⟨hfirst.plainBases, hlast.plainBases⟩, ?_, ?_⟩
  · rw [hkind]
    exact hop
  · rw [Phrase.tokens, hfirst.yield, hlast.yield]
  · exact expr_chain_eq_ok_iff.mpr ⟨left, hfirst.expr, right, hlast.expr, op, htext, rfl⟩

end StandsFor

/-- What a phrase stands for, a phrase of any layer above stands for. -/
theorem StandsFor.raise {l m : Nat} {x : Phrase l} {tokens : List Token} {e : Expr}
    (h : x.StandsFor tokens e) (hle : l ≤ m) :
    ∃ y : Phrase m, y.StandsFor tokens e ∧ (y.isUnary = true → x.isUnary = true) := by
  induction hle with
  | refl => exact ⟨x, h, fun hunary => hunary⟩
  | @step m _ ih =>
    obtain ⟨y, ⟨hwell, hplain, hyield, hexpr⟩, -⟩ := ih
    -- up to the factors a primary is wrapped, and from there on an operand
    match m with
    | 0 =>
      refine ⟨.primary y, ⟨hwell, hplain, hyield, hexpr⟩, ?_⟩
      exact fun hunary => absurd hunary Bool.false_ne_true
    | n + 1 =>
      refine ⟨.single y, ⟨hwell, hplain, hyield, hexpr⟩, ?_⟩
      exact fun hunary => absurd hunary Bool.false_ne_true

/-- The same for a phrase that is no unary operation: then none of those above it is one. -/
theorem StandsFor.raise_plain {l m : Nat} {x : Phrase l} {tokens : List Token} {e : Expr}
    (h : x.StandsFor tokens e) (hplain : x.isUnary = false) (hle : l ≤ m) (p : Prop) :
    ∃ y : Phrase m, y.StandsFor tokens e ∧ (y.isUnary = true → p) := by
  obtain ⟨y, hy, hunary⟩ := h.raise hle
  refine ⟨y, hy, ?_⟩
  intro hyUnary
  have hxUnary := hunary hyUnary
  rw [hplain] at hxUnary
  exact absurd hxUnary Bool.false_ne_true

end Phrase

/-- Tokens that print an expression are those of a phrase of any layer that is loose enough. -/
theorem Expr.Printing.exists_phrase {e : Expr} {enclosed : Bool} {words : List Word}
    (h : e.Printing enclosed words) {tokens : List Token} (htokens : tokens.map Token.word = words)
    {l : Nat} (hl : l ≤ 4) (hfits : enclosed = false → e.rank ≤ l + 1) :
    ∃ x : Phrase l, x.StandsFor tokens e ∧
      (x.isUnary = true → enclosed = false ∧ e.rank = 1) := by
  -- for all layers at once: an operand is asked for at the layer that its place allows
  induction h generalizing tokens l with
  | identifier name =>
    obtain ⟨id, rfl, hid⟩ := List.map_eq_singleton_iff.mp htokens
    obtain ⟨hkind, rfl⟩ := Word.mk.inj hid
    have hstands : (Phrase.identifier id).StandsFor [id] (.identifier id.text) :=
      ⟨hkind, trivial, rfl, rfl⟩
    exact hstands.raise_plain rfl (Nat.zero_le l) _
  | number hread =>
    obtain ⟨token, rfl, htoken⟩ := List.map_eq_singleton_iff.mp htokens
    obtain ⟨hkind, rfl⟩ := Word.mk.inj htoken
    have hexpr := Phrase.expr_numeral_eq_ok_iff.mpr ⟨_, hread, rfl⟩
    have hstands : (Phrase.numeral token).StandsFor [token] _ := ⟨hkind, trivial, rfl, hexpr⟩
    exact hstands.raise_plain rfl (Nat.zero_le l) _
  | @unary op operand operandEnclosed operandWords hoperand hplace ih =>
    obtain ⟨token, later, rfl, htoken, hlater⟩ := List.map_eq_cons_iff.mp htokens
    obtain ⟨inner, hinner, -⟩ := ih hlater (l := 1) (by omega) (Place.fits_iff.mp hplace)
    obtain ⟨x, hx, -⟩ := (hinner.unary htoken).raise (Nat.zero_le l)
    exact ⟨x, hx, fun _ => ⟨rfl, rfl⟩⟩
  | @binary op left right leftEnclosed rightEnclosed leftWords rightWords hleft hleftPlace hright
      hrightPlace ihleft ihright =>
    obtain ⟨front, behind, rfl, hfront, hbehind⟩ := List.map_eq_append_iff.mp htokens
    obtain ⟨token, later, rfl, htoken, hlater⟩ := List.map_eq_cons_iff.mp hbehind
    have hleftBound := Place.fits_iff.mp hleftPlace
    have hrightBound := Place.fits_iff.mp hrightPlace
    have hrank : op.rank ≤ l + 1 := hfits rfl
    by_cases hpower : op = .power
    · -- an exponent: the base is a primary, and nests no further
      subst hpower
      have hleftZero : leftEnclosed = false → left.rank ≤ 0 := hleftBound
      obtain ⟨base, hbase, hbaseUnary⟩ :=
        ihleft hfront (l := 0) (by omega) fun hfalse => (hleftZero hfalse).trans (Nat.zero_le 1)
      obtain ⟨exponent, hexponent, -⟩ := ihright hlater (l := 1) (by omega) hrightBound
      -- a unary base would be printed in parentheses there, and then it is none
      have hplain : base.isUnary = false := by
        by_contra hunary
        obtain ⟨hfalse, hone⟩ := hbaseUnary (Bool.eq_true_of_not_eq_false hunary)
        have hzero := hleftZero hfalse
        omega
      have hle : 1 ≤ l := by
        rw [BinaryOp.rank_eq_two_iff.mpr rfl] at hrank
        omega
      exact (hbase.power hplain htoken hexponent).raise_plain rfl hle _
    · -- all others: the left operand is a chain of the same layer, the right one is tighter
      obtain ⟨n, hn, hmember, hrankEq⟩ := Phrase.exists_chainLevel hpower
      rw [Place.bound_left hpower, hrankEq] at hleftBound
      rw [Place.bound_right hpower, hrankEq] at hrightBound
      obtain ⟨first, hfirst, -⟩ := ihleft hfront (l := n + 2) (by omega) hleftBound
      obtain ⟨last, hlast, -⟩ := ihright hlater (l := n + 1) (by omega) hrightBound
      have hle : n + 2 ≤ l := by omega
      exact (hfirst.chain htoken hmember hlast).raise_plain rfl hle _
  | @enclose e enclosed words hinner ih =>
    rw [List.cons_append] at htokens
    obtain ⟨opening, behind, rfl, hopening, hbehind⟩ := List.map_eq_cons_iff.mp htokens
    obtain ⟨inside, last, rfl, hinside, hlast⟩ := List.map_eq_append_iff.mp hbehind
    obtain ⟨closing, rfl, hclosing⟩ := List.map_eq_singleton_iff.mp hlast
    -- inside parentheses every expression fits
    obtain ⟨body, hbody, -⟩ := ih hinside (l := 4) (by omega) fun _ => e.rank_le
    have hopeningKind := congrArg Word.kind hopening
    have hclosingKind := congrArg Word.kind hclosing
    have hstands : (Phrase.parens opening body closing).StandsFor
        (opening :: (inside ++ [closing])) e := by
      refine ⟨⟨hopeningKind, hbody.wellKinded, hclosingKind⟩, hbody.plainBases, ?_, hbody.expr⟩
      rw [Phrase.tokens, hbody.yield, List.cons_append]
    exact hstands.raise_plain rfl (Nat.zero_le l) _

theorem Expr.Printing.exists_exp {e : Expr} {enclosed : Bool} {words : List Word}
    (h : e.Printing enclosed words) {tokens : List Token}
    (htokens : tokens.map Token.word = words) : ∃ x : Exp, x.StandsFor tokens e := by
  obtain ⟨x, hx, -⟩ := h.exists_phrase htokens (Nat.le_refl 4) fun _ => e.rank_le
  exact ⟨x, hx⟩

-- ---------------------------------------------------------------------------
-- Statements and programs
-- ---------------------------------------------------------------------------

/-- The clause is one that the rules can find, made of the tokens and read as the statement. -/
structure Clause.StandsFor (clause : Clause) (tokens : List Token) (statement : Statement) :
    Prop where
  wellKinded : clause.WellKinded
  plainBases : clause.exp.PlainBases
  yield      : clause.tokens = tokens
  statement  : clause.statement = .ok statement

/-- The tokens of a clause print the statement that it is read as. -/
theorem Clause.printing_of_statement {clause : Clause} {statement : Statement}
    (hwell : clause.WellKinded) (hplain : clause.exp.PlainBases)
    (hspelled : ∀ token ∈ clause.tokens, token.Spelled) (h : clause.statement = .ok statement) :
    statement.Printing (clause.tokens.map Token.word) := by
  cases clause with
  | declare keyword id eq exp =>
    obtain ⟨hkeyword, hid, heq, hexp⟩ := hwell
    simp only [tokens, List.forall_mem_cons] at hspelled
    obtain ⟨hkeywordSpelled, -, heqSpelled, hexpSpelled⟩ := hspelled
    obtain ⟨value, hvalue, rfl⟩ := statement_declare_eq_ok_iff.mp h
    obtain ⟨enclosed, hprinting, -⟩ :=
      Phrase.printing_of_expr (Nat.le_refl 4) hexp hplain hexpSpelled hvalue
    simp only [tokens, List.map_cons, hkeywordSpelled.word_eq hkeyword rfl, Token.word_of_kind hid,
      heqSpelled.word_eq heq rfl]
    exact .declare hprinting
  | assign id eq exp =>
    obtain ⟨hid, heq, hexp⟩ := hwell
    simp only [tokens, List.forall_mem_cons] at hspelled
    obtain ⟨-, heqSpelled, hexpSpelled⟩ := hspelled
    obtain ⟨value, hvalue, rfl⟩ := statement_assign_eq_ok_iff.mp h
    obtain ⟨enclosed, hprinting, -⟩ :=
      Phrase.printing_of_expr (Nat.le_refl 4) hexp hplain hexpSpelled hvalue
    simp only [tokens, List.map_cons, Token.word_of_kind hid, heqSpelled.word_eq heq rfl]
    exact .assign hprinting
  | print keyword exp =>
    obtain ⟨hkeyword, hexp⟩ := hwell
    rw [tokens, List.forall_mem_cons] at hspelled
    obtain ⟨value, hvalue, rfl⟩ := statement_print_eq_ok_iff.mp h
    obtain ⟨enclosed, hprinting, -⟩ :=
      Phrase.printing_of_expr (Nat.le_refl 4) hexp hplain hspelled.2 hvalue
    rw [tokens, List.map_cons, hspelled.1.word_eq hkeyword rfl]
    exact .print hprinting

/-- Tokens that print a statement are those of a clause. -/
theorem Statement.Printing.exists_clause {statement : Statement} {words : List Word}
    (h : statement.Printing words) {tokens : List Token} (htokens : tokens.map Token.word = words) :
    ∃ clause : Clause, clause.StandsFor tokens statement := by
  cases h with
  | declare hvalue =>
    obtain ⟨keyword, tail, rfl, hkeyword, htail⟩ := List.map_eq_cons_iff.mp htokens
    obtain ⟨id, tail', rfl, hid, htail'⟩ := List.map_eq_cons_iff.mp htail
    obtain ⟨eq, later, rfl, heq, hlater⟩ := List.map_eq_cons_iff.mp htail'
    obtain ⟨exp, hexp⟩ := hvalue.exists_exp hlater
    obtain ⟨hidKind, rfl⟩ := Word.mk.inj hid
    refine ⟨.declare keyword id eq exp, ⟨congrArg Word.kind hkeyword, hidKind,
      congrArg Word.kind heq, hexp.wellKinded⟩, hexp.plainBases, ?_, ?_⟩
    · rw [Clause.tokens, hexp.yield]
    · exact Clause.statement_declare_eq_ok_iff.mpr ⟨_, hexp.expr, rfl⟩
  | assign hvalue =>
    obtain ⟨id, tail, rfl, hid, htail⟩ := List.map_eq_cons_iff.mp htokens
    obtain ⟨eq, later, rfl, heq, hlater⟩ := List.map_eq_cons_iff.mp htail
    obtain ⟨exp, hexp⟩ := hvalue.exists_exp hlater
    obtain ⟨hidKind, rfl⟩ := Word.mk.inj hid
    refine ⟨.assign id eq exp, ⟨hidKind, congrArg Word.kind heq, hexp.wellKinded⟩,
      hexp.plainBases, ?_, ?_⟩
    · rw [Clause.tokens, hexp.yield]
    · exact Clause.statement_assign_eq_ok_iff.mpr ⟨_, hexp.expr, rfl⟩
  | print hvalue =>
    obtain ⟨keyword, later, rfl, hkeyword, hlater⟩ := List.map_eq_cons_iff.mp htokens
    obtain ⟨exp, hexp⟩ := hvalue.exists_exp hlater
    refine ⟨.print keyword exp, ⟨congrArg Word.kind hkeyword, hexp.wellKinded⟩,
      hexp.plainBases, ?_, ?_⟩
    · rw [Clause.tokens, hexp.yield]
    · exact Clause.statement_print_eq_ok_iff.mpr ⟨_, hexp.expr, rfl⟩

/-- The tokens of a derivation print the program that it is read as. -/
theorem Derivation.printing_of_program {derivation : Derivation} {program : Program}
    (hne : derivation.clauses ≠ []) (hwell : derivation.WellKinded)
    (hplain : derivation.PlainBases) (hspelled : ∀ token ∈ derivation.tokens, token.Spelled)
    (h : derivation.program = .ok program) :
    program.Printing (derivation.tokens.map Token.word) := by
  rw [program_eq_ok_iff] at h
  refine ⟨?_, derivation.clauses.map fun clause => clause.tokens.map Token.word, ?_, ?_⟩
  · intro hempty
    rw [hempty, List.forall₂_nil_right_iff] at h
    exact hne h
  · have hprinting : ∀ clause statement,
        (clause ∈ derivation.clauses ∧ Clause.statement clause = .ok statement) →
          statement.Printing (clause.tokens.map Token.word) := by
      intro clause statement hread
      obtain ⟨hmem, hstatement⟩ := hread
      refine Clause.printing_of_statement (hwell clause hmem) (hplain clause hmem) ?_ hstatement
      exact fun token htoken => hspelled token (List.mem_flatMap.mpr ⟨clause, hmem, htoken⟩)
    have hall := (List.forall₂_and_left _ _).mpr ⟨fun clause hmem => hmem, h⟩
    rw [List.forall₂_map_right_iff]
    exact (hall.imp hprinting).flip
  · rw [tokens, List.map_flatMap, List.flatMap_def]

/-- Tokens that print statements are those of as many clauses. -/
theorem exists_clauses {statements : List Statement} {parts : List (List Word)}
    (h : List.Forall₂ Statement.Printing statements parts) {tokens : List Token}
    (htokens : tokens.map Token.word = parts.flatten) :
    ∃ clauses : List Clause, clauses.flatMap Clause.tokens = tokens ∧
      (∀ clause ∈ clauses, clause.WellKinded ∧ clause.exp.PlainBases) ∧
      List.Forall₂ (fun clause statement => clause.statement = .ok statement)
        clauses statements := by
  induction h generalizing tokens with
  | nil =>
    obtain rfl := List.map_eq_nil_iff.mp htokens
    exact ⟨[], rfl, by simp, .nil⟩
  | cons hfirst hlater ih =>
    -- the tokens are split where the words of the first statement end
    obtain ⟨front, behind, rfl, hfront, hbehind⟩ := List.map_eq_append_iff.mp htokens
    obtain ⟨clause, hclause⟩ := hfirst.exists_clause hfront
    obtain ⟨clauses, hyield, hgood, hstatements⟩ := ih hbehind
    refine ⟨clause :: clauses, ?_, ?_, .cons hclause.statement hstatements⟩
    · rw [List.flatMap_cons, hclause.yield, hyield]
    · rw [List.forall_mem_cons]
      exact ⟨⟨hclause.wellKinded, hclause.plainBases⟩, hgood⟩

-- ---------------------------------------------------------------------------
-- Sources
-- ---------------------------------------------------------------------------

/-- The words of a source: its tokens without their places and without the end token. -/
def sourceWords (source file : String) : List Word :=
  ((tokenize source file).filter fun token => token.kind ≠ .endOfInput).map Token.word

theorem sourceWords_eq (source file : String) :
    sourceWords source file = (beforeEnd (tokenize source file)).map Token.word := by
  obtain ⟨front, position, htokens, hfront⟩ := exists_tokenize_eq source file
  have hfilter : front.filter (fun token => token.kind ≠ .endOfInput) = front :=
    List.filter_eq_self.mpr fun token hmem => decide_eq_true (hfront token hmem)
  rw [sourceWords, htokens, beforeEnd_concat hfront, List.filter_append, hfilter, List.map_append]
  exact List.append_nil _

/-- A source is parsed by matching its tokens and reading the derivation. -/
theorem parse_outcome_eq_ok_iff {source file : String} {program : Program} :
    (parse source file).outcome = .ok program ↔
      ∃ derivation, (matchTokens (tokenize source file) file).outcome = .ok derivation ∧
        derivation.program = .ok program := by
  unfold parse derive
  cases hmatch : (matchTokens (tokenize source file) file).outcome with
  | error stop => simp [hmatch]
  | ok derivation =>
    cases hprogram : derivation.program with
    | error fault => simp [hmatch, hprogram]
    | ok found => simp [hmatch, hprogram]

/--
**Precedence and associativity.** A source is parsed as a program exactly if its words print the
program.
-/
theorem parse_eq_ok_iff (source file : String) (program : Program) :
    (parse source file).outcome = .ok program ↔ program.Printing (sourceWords source file) := by
  rw [sourceWords_eq, parse_outcome_eq_ok_iff]
  constructor
  · intro hparse
    obtain ⟨derivation, hmatch, hprogram⟩ := hparse
    have hcovers := covers_of_matchTokens hmatch
    rw [← hcovers.yield]
    refine Derivation.printing_of_program hcovers.nonempty hcovers.wellKinded hcovers.plainBases ?_
      hprogram
    intro token hmem
    rw [hcovers.yield] at hmem
    exact spelled_of_mem_tokenize (List.takeWhile_subset _ hmem)
  · intro hprinting
    obtain ⟨hne, parts, hparts, hwords⟩ := hprinting
    obtain ⟨clauses, hyield, hgood, hstatements⟩ := exists_clauses hparts hwords
    -- the clauses that were found cover the tokens, so they are what is matched
    have hcovers : (Derivation.mk clauses).Covers (tokenize source file) := by
      refine ⟨?_, hyield, fun clause hmem => (hgood clause hmem).1,
        fun clause hmem => (hgood clause hmem).2⟩
      rintro rfl
      exact hne (List.forall₂_nil_left_iff.mp hstatements)
    exact ⟨_, hcovers.matchTokens file, Derivation.program_eq_ok_iff.mpr hstatements⟩

end Reckon
