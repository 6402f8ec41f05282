import StaticDispatch.Proofs.Tree.OperatorCore

/-!
# Reading printed expressions back

The text of an expression from variables, keywords, whole numbers, members,
operators and lists tells which expression it is, up to positions, facts and
declared types.  A reader goes through the tokens once and keeps a stack of
what is still open: a sign, a left operand or the parts of a conditional wait
for the operand that comes next, a bracket waits for its end.  From the tokens
of an expression it comes to hold that expression, provided that what stands
before and after them calls for no parentheses around them.
-/

namespace StaticDispatch

/-! ## The reader -/

/-- The expression that a word stands for. -/
def Expr.ofWord (text : String) : Expr :=
  if text.toList.head?.any Char.isDigit then
    .literal {} (.integer (Int64.ofInt (Nat.ofDigitChars 10 text.toList 0)))
  else if text = "this" then .this {}
  else if text = "null" then .literal {} .null
  else if text = "true" then .literal {} (.boolean true)
  else if text = "false" then .literal {} (.boolean false)
  else .var {} text none

/-- A comma-separated series of expressions in brackets. -/
inductive Series where
  | arguments (receiver : Expr) (safe : Bool) (name : String)
  | elements

def Series.closer : Series → Token
  | .arguments _ _ _ => .closing
  | .elements => .listClosing

def Series.build : Series → List Expr → Expr
  | .arguments receiver safe name, args => .methodCall {} receiver name args safe false
  | .elements, items => .list {} items

/-- What is still open. -/
inductive Pending where
  | sign (op : UnaryOp)
  | left (operand : Expr) (op : BinaryOp)
  | condition (condition : Expr)
  | branch (condition yes : Expr)
  | group
  | subscript (receiver : Expr)
  | series (series : Series) (before : List Expr)

/-- The expression that an operand completes. -/
def Pending.absorb? : Pending → Expr → Option Expr
  | .sign op, operand => some (.unary {} op operand)
  | .left operand op, right => some (.binary {} op {} operand right)
  | .branch test yes, no => some (.ternary {} test yes no)
  | _, _ => none

def Pending.isSign : Pending → Bool
  | .sign _ => true
  | _ => false

/-- The reader waits for an expression, or holds one that may go on. -/
inductive Reading where
  | awaiting (pending : List Pending)
  | holding (e : Expr) (pending : List Pending)

namespace Reading

/-- Signs bind more strongly than what stands between operands. -/
def applySigns : Expr → List Pending → Expr × List Pending
  | e, .sign op :: pending => applySigns (.unary {} op e) pending
  | e, pending => (e, pending)

/-- Before the end of a bracket all operators since its start are applied. -/
def settle : Expr → List Pending → Expr × List Pending
  | e, [] => (e, [])
  | e, top :: pending =>
      match top.absorb? e with
      | some e' => settle e' pending
      | none => (e, top :: pending)

def afterSeparator? : Separator → Expr × List Pending → Option Reading
  | .operator op, (e, pending) => some (.awaiting (.left e op :: pending))
  | .question, (e, pending) => some (.awaiting (.condition e :: pending))
  | .colon, (e, .condition condition :: pending) =>
      some (.awaiting (.branch condition e :: pending))
  | .colon, _ => none

def afterCloser? : Token → Expr × List Pending → Option Reading
  | .closing, (e, .group :: pending) => some (.holding e pending)
  | .listClosing, (e, .subscript receiver :: pending) =>
      some (.holding (.binary {} .index {} receiver e) pending)
  | .comma, (e, .series series before :: pending) =>
      some (.awaiting (.series series (before ++ [e]) :: pending))
  | token, (e, .series series before :: pending) =>
      if token = series.closer then some (.holding (series.build (before ++ [e])) pending)
      else none
  | _, _ => none

def step? : Reading → Token → Option Reading
  | .awaiting pending, .word text => some (.holding (.ofWord text) pending)
  | .awaiting pending, .opening => some (.awaiting (.group :: pending))
  | .awaiting pending, .listOpening => some (.awaiting (.series .elements [] :: pending))
  | .awaiting pending, .sign op => some (.awaiting (.sign op :: pending))
  | .awaiting (.series series before :: pending), token =>
      if token = series.closer then some (.holding (series.build before) pending) else none
  | .awaiting _, _ => none
  | .holding _ _, .word _ => none
  | .holding _ _, .opening => none
  | .holding _ _, .sign _ => none
  | .holding e pending, .member name => some (.holding (.property {} e name) pending)
  | .holding e pending, .callee safe name =>
      some (.awaiting (.series (.arguments e safe name) [] :: pending))
  | .holding e pending, .listOpening => some (.awaiting (.subscript e :: pending))
  | .holding e pending, .between sep => afterSeparator? sep (applySigns e pending)
  | .holding e pending, token => afterCloser? token (settle e pending)

/-- The expression that is held at the end, with nothing open. -/
def finish? : Reading → Option Expr
  | .awaiting _ => none
  | .holding e pending =>
      match settle e pending with
      | (e, []) => some e
      | _ => none

def read : Reading → List Token → Option Expr
  | reading, [] => reading.finish?
  | reading, token :: tokens =>
      if token.isProper then (reading.step? token).bind fun next => read next tokens else none

theorem read_cons {reading next : Reading} {token : Token} {tokens : List Token}
    (hproper : token.isProper = true) (hstep : reading.step? token = some next) :
    reading.read (token :: tokens) = next.read tokens := by
  simp only [read, if_pos hproper, hstep, Option.bind_some]

def isHolding : Reading → Bool
  | .holding _ _ => true
  | .awaiting _ => false

theorem isHolding_of_endsInName {reading next : Reading} {token : Token}
    (hstep : reading.step? token = some next) (hname : token.endsInName = true) :
    next.isHolding = true := by
  cases token with
  | word text =>
      cases reading with
      | awaiting pending =>
          obtain rfl := Option.some.inj hstep
          rfl
      | holding e pending => cases hstep
  | member name =>
      cases reading with
      | awaiting pending =>
          cases pending with
          | nil => cases hstep
          | cons top pending =>
              cases top with
              | series series before => cases series <;> cases hstep
              | _ => cases hstep
      | holding e pending =>
          obtain rfl := Option.some.inj hstep
          rfl
  | _ => cases hname

theorem isBeyondName_of_isHolding {reading next : Reading} {token : Token}
    (hstep : reading.step? token = some next) (hholding : reading.isHolding = true)
    (text : List Char) : IsBeyondName (token.chars ++ text) := by
  cases reading with
  | awaiting pending => cases hholding
  | holding e pending =>
      intro c hc
      cases token with
      | word word => cases hstep
      | opening => cases hstep
      | sign op => cases hstep
      | callee safe name =>
          cases safe with
          | false =>
              obtain rfl := Option.some.inj hc
              decide
          | true =>
              obtain rfl := Option.some.inj hc
              decide
      | _ =>
          obtain rfl := Option.some.inj hc
          decide

/-- Tokens that are read have names that end. -/
theorem spaced_of_read {reading : Reading} {tokens : List Token} {e : Expr}
    (h : reading.read tokens = some e) :
    Spaced tokens ∧ (reading.isHolding = true → IsBeyondName (spell tokens)) := by
  induction tokens generalizing reading with
  | nil => exact ⟨trivial, fun _ c hc => nomatch hc⟩
  | cons token tokens ih =>
      simp only [read] at h
      by_cases hproper : token.isProper = true
      · rw [if_pos hproper] at h
        obtain ⟨next, hstep, hread⟩ := Option.bind_eq_some_iff.mp h
        obtain ⟨hspaced, hbeyond⟩ := ih hread
        have hname : token.endsInName = true → IsBeyondName (spell tokens) :=
          fun hname => hbeyond (isHolding_of_endsInName hstep hname)
        refine ⟨⟨hproper, hname, hspaced⟩, fun hholding => ?_⟩
        rw [spell_cons]
        exact isBeyondName_of_isHolding hstep hholding _
      · rw [if_neg hproper] at h
        cases h

end Reading

/-! ## What may stand around an expression -/

theorem forall_mem_head?_cons {α : Type} {P : α → Prop} {x : α} {xs : List α} (h : P x) :
    ∀ y ∈ (x :: xs).head?, P y := by
  rintro y ⟨⟩
  exact h

def Token.isPostfix : Token → Bool
  | .member _ => true
  | .callee _ _ => true
  | .listOpening => true
  | _ => false

def Token.isCloser : Token → Bool
  | .closing => true
  | .listClosing => true
  | .comma => true
  | _ => false

/-- The expression needs no parentheses between what is open before it and what follows it. -/
structure Expr.StandsFree (e : Expr) (pending : List Pending) (rest : List Token) : Prop where
  noPostfix : e.isOpenReceiver = true → ∀ token ∈ rest.head?, token.isPostfix = false
  closed : e.isOpenOperand = true → ∀ token ∈ rest.head?, token.isCloser = true
  noSign : e.isOpenOperand = true → ∀ top ∈ pending.head?, top.isSign = false

/-- From the tokens of the expression the reader comes to hold it. -/
def Expr.IsRead (e : Expr) : Prop :=
  ∀ pending rest, e.StandsFree pending rest →
    (Reading.awaiting pending).read (e.tokens ++ rest) =
      (Reading.holding e.bare pending).read rest

namespace Reading

variable {e e' : Expr} {top : Pending} {pending : List Pending} {rest : List Token}

theorem settle_absorb (h : top.absorb? e = some e') :
    settle e (top :: pending) = settle e' pending := by
  simp only [settle, h]

/-- At the end of a bracket it makes no difference that an operator is applied before. -/
theorem read_absorb (h : top.absorb? e = some e')
    (hrest : ∀ token ∈ rest.head?, token.isCloser = true) :
    (Reading.holding e (top :: pending)).read rest = (Reading.holding e' pending).read rest := by
  cases rest with
  | nil => simp only [read, finish?, settle_absorb h]
  | cons token rest =>
      have hstep : (Reading.holding e (top :: pending)).step? token =
          (Reading.holding e' pending).step? token := by
        have hcloser := hrest token rfl
        cases token with
        | closing => simp only [step?, settle_absorb h]
        | listClosing => simp only [step?, settle_absorb h]
        | comma => simp only [step?, settle_absorb h]
        | _ => cases hcloser
      simp only [read, hstep]

/-- Nor does it, of a sign, before what stands between operands. -/
theorem read_sign {op : UnaryOp} (hrest : ∀ token ∈ rest.head?, token.isPostfix = false) :
    (Reading.holding e (.sign op :: pending)).read rest =
      (Reading.holding (.unary {} op e) pending).read rest := by
  cases rest with
  | nil => rfl
  | cons token rest =>
      have hpostfix := hrest token rfl
      cases token with
      | member name => cases hpostfix
      | callee safe name => cases hpostfix
      | listOpening => cases hpostfix
      | _ => rfl

theorem applySigns_eq (htop : ∀ top ∈ pending.head?, top.isSign = false) :
    applySigns e pending = (e, pending) := by
  cases pending with
  | nil => rfl
  | cons top pending =>
      have hsign := htop top rfl
      cases top with
      | sign op => cases hsign
      | _ => rfl

theorem read_between {sep : Separator} {next : Reading}
    (htop : ∀ top ∈ pending.head?, top.isSign = false)
    (hnext : afterSeparator? sep (e, pending) = some next) :
    (Reading.holding e pending).read (.between sep :: rest) = next.read rest := by
  apply read_cons rfl
  simp only [step?, applySigns_eq htop, hnext]

end Reading

theorem Series.isCloser_closer (series : Series) : series.closer.isCloser = true := by
  cases series with
  | arguments receiver safe name => rfl
  | elements => rfl

theorem Token.isPostfix_of_isCloser {token : Token} (h : token.isCloser = true) :
    token.isPostfix = false := by
  cases token with
  | closing => rfl
  | listClosing => rfl
  | comma => rfl
  | _ => cases h

theorem Expr.isOpenOperand_of_isOpenReceiver {e : Expr} (h : e.isOpenReceiver = false) :
    e.isOpenOperand = false := by
  cases e with
  | binary info op opSpan left right => exact h
  | ternary info condition yes no => cases h
  | declaration info name declaredType initializer => cases h
  | _ => rfl

section StandsFree

variable {e : Expr} {pending : List Pending} {rest : List Token}

/-- Every expression stands free before the end of a bracket, if no sign is before it. -/
theorem Expr.standsFree_of_isCloser (htop : ∀ top ∈ pending.head?, top.isSign = false)
    (hrest : ∀ token ∈ rest.head?, token.isCloser = true) : e.StandsFree pending rest where
  noPostfix := fun _ token htoken => Token.isPostfix_of_isCloser (hrest token htoken)
  closed := fun _ => hrest
  noSign := fun _ => htop

theorem Expr.standsFree_of_isOpenOperand (h : e.isOpenOperand = false)
    (hrest : ∀ token ∈ rest.head?, token.isPostfix = false) : e.StandsFree pending rest where
  noPostfix := fun _ => hrest
  closed := fun hopen => nomatch h.symm.trans hopen
  noSign := fun hopen => nomatch h.symm.trans hopen

theorem Expr.standsFree_of_isOpenReceiver (h : e.isOpenReceiver = false) :
    e.StandsFree pending rest where
  noPostfix := fun hopen => nomatch h.symm.trans hopen
  closed := fun hopen => nomatch (isOpenOperand_of_isOpenReceiver h).symm.trans hopen
  noSign := fun hopen => nomatch (isOpenOperand_of_isOpenReceiver h).symm.trans hopen

end StandsFree

namespace Expr.IsRead

open Reading

variable {e receiver left right : Expr} {pending : List Pending} {rest : List Token}

theorem grouped (h : e.IsRead) (pending : List Pending) (rest : List Token) :
    (Reading.awaiting pending).read (groupedIf true e.tokens ++ rest) =
      (Reading.holding e.bare pending).read rest := by
  have hfree : e.StandsFree (.group :: pending) (.closing :: rest) :=
    standsFree_of_isCloser (forall_mem_head?_cons rfl) (forall_mem_head?_cons rfl)
  have htokens : groupedIf true e.tokens ++ rest =
      .opening :: (e.tokens ++ .closing :: rest) := by
    simp [groupedIf]
  calc (Reading.awaiting pending).read (groupedIf true e.tokens ++ rest)
      = (Reading.awaiting (.group :: pending)).read (e.tokens ++ .closing :: rest) := by
        rw [htokens]
        exact read_cons rfl rfl
    _ = (Reading.holding e.bare (.group :: pending)).read (.closing :: rest) := h _ _ hfree
    _ = (Reading.holding e.bare pending).read rest := read_cons rfl rfl

theorem asReceiver (h : e.IsRead) (pending : List Pending) (rest : List Token) :
    (Reading.awaiting pending).read (groupedIf e.isOpenReceiver e.tokens ++ rest) =
      (Reading.holding e.bare pending).read rest := by
  cases hopen : e.isOpenReceiver with
  | true => exact h.grouped pending rest
  | false => exact h pending rest (standsFree_of_isOpenReceiver hopen)

theorem asOperand (h : e.IsRead) (pending : List Pending)
    (hrest : ∀ token ∈ rest.head?, token.isPostfix = false) :
    (Reading.awaiting pending).read (groupedIf e.isOpenOperand e.tokens ++ rest) =
      (Reading.holding e.bare pending).read rest := by
  cases hopen : e.isOpenOperand with
  | true => exact h.grouped pending rest
  | false => exact h pending rest (standsFree_of_isOpenOperand hopen hrest)

/-- The rest of a series, from its first or next expression to the end of the bracket. -/
theorem series {es : List Expr} (h : ∀ e ∈ es, e.IsRead) (series : Series)
    (before : List Expr) (pending : List Pending) (rest : List Token) :
    (Reading.awaiting (.series series before :: pending)).read
        (commaTokens (exprsTokens es) ++ series.closer :: rest) =
      (Reading.holding (series.build (before ++ bareExprs es)) pending).read rest := by
  induction es generalizing before with
  | nil =>
      rw [bareExprs_nil, List.append_nil]
      cases series with
      | arguments receiver safe name => exact read_cons rfl rfl
      | elements => exact read_cons rfl rfl
  | cons e es ih =>
      have he := h e List.mem_cons_self
      cases es with
      | nil =>
          have htokens : commaTokens (exprsTokens [e]) = e.tokens := commaTokens_singleton _
          have hfree : e.StandsFree (.series series before :: pending) (series.closer :: rest) :=
            standsFree_of_isCloser (forall_mem_head?_cons rfl)
              (forall_mem_head?_cons series.isCloser_closer)
          rw [htokens, he _ _ hfree]
          cases series with
          | arguments receiver safe name => exact read_cons rfl rfl
          | elements => exact read_cons rfl rfl
      | cons other es =>
          have htokens : commaTokens (exprsTokens (e :: other :: es)) ++ series.closer :: rest =
              e.tokens ++ .comma :: (commaTokens (exprsTokens (other :: es)) ++
                series.closer :: rest) := by
            rw [exprsTokens_cons, exprsTokens_cons, commaTokens_cons_cons, List.append_assoc,
              List.cons_append]
          have hothers := ih (fun e he => h e (List.mem_cons_of_mem _ he)) (before ++ [e.bare])
          rw [List.append_assoc] at hothers
          rw [htokens, he _ _ (standsFree_of_isCloser (forall_mem_head?_cons rfl)
            (forall_mem_head?_cons rfl))]
          exact (read_cons rfl rfl).trans hothers

theorem property (h : receiver.IsRead) (info : Info) {name : String} (hname : IsPlainName name) :
    (Expr.property info receiver name).IsRead := by
  intro pending rest _
  simp only [Expr.tokens_property, Expr.bare_property, List.append_assoc]
  rw [h.asReceiver]
  exact read_cons hname.chars rfl

theorem methodCall (h : receiver.IsRead) (info : Info) {name : String} (hname : IsPlainName name)
    (safe : Bool) {args : List Expr} (hargs : ∀ arg ∈ args, arg.IsRead) :
    (Expr.methodCall info receiver name args safe false).IsRead := by
  intro pending rest _
  have hproper : (Token.callee safe name).isProper = true := hname.chars
  have hseries := series hargs (.arguments receiver.bare safe name) [] pending rest
  simp only [Expr.tokens_methodCall, Expr.bare_methodCall, List.append_assoc,
    List.cons_append, List.nil_append]
  rw [h.asReceiver]
  exact (read_cons hproper rfl).trans hseries

theorem list (info : Info) {items : List Expr} (hitems : ∀ item ∈ items, item.IsRead) :
    (Expr.list info items).IsRead := by
  intro pending rest _
  have hseries := series hitems .elements [] pending rest
  simp only [Expr.tokens_list, Expr.bare_list, List.append_assoc, List.cons_append,
    List.nil_append]
  exact (read_cons rfl rfl).trans hseries

theorem unary (h : e.IsRead) (info : Info) (op : UnaryOp) : (Expr.unary info op e).IsRead := by
  intro pending rest hfree
  have hrest := hfree.noPostfix rfl
  simp only [Expr.tokens_unary, Expr.bare_unary, List.cons_append]
  rw [read_cons rfl rfl, h.asOperand _ hrest, read_sign hrest]

theorem ternary {condition yes no : Expr} (h : condition.IsRead) (hyes : yes.IsRead)
    (hno : no.IsRead) (info : Info) : (Expr.ternary info condition yes no).IsRead := by
  intro pending rest hfree
  have hrest := hfree.noPostfix rfl
  simp only [Expr.tokens_ternary, Expr.bare_ternary, List.append_assoc, List.cons_append]
  -- at the question mark and at the colon there is no sign on top that would be applied
  rw [h.asOperand _ (forall_mem_head?_cons rfl), read_between (hfree.noSign rfl) rfl,
    hyes.asOperand _ (forall_mem_head?_cons rfl), read_between (forall_mem_head?_cons rfl) rfl,
    hno.asOperand _ hrest, read_absorb rfl (hfree.closed rfl)]

/-- A left operand with its operator waits for the right one. -/
theorem asLeft (h : left.IsRead) (op : BinaryOp) (rest : List Token)
    (hsign : ∀ top ∈ pending.head?, top.isSign = false) :
    (Reading.awaiting pending).read
        (groupedIf left.isOpenOperand left.tokens ++ .between (.operator op) :: rest) =
      (Reading.awaiting (.left left.bare op :: pending)).read rest := by
  rw [h.asOperand pending (forall_mem_head?_cons rfl), read_between hsign rfl]

theorem subscript (h : left.IsRead) (hright : right.IsRead) (info : Info) (opSpan : Span) :
    (Expr.binary info .index opSpan left right).IsRead := by
  intro pending rest _
  have hfree : right.StandsFree (.subscript left.bare :: pending) (.listClosing :: rest) :=
    standsFree_of_isCloser (forall_mem_head?_cons rfl) (forall_mem_head?_cons rfl)
  simp only [Expr.tokens_binary, binaryTokens, Expr.bare_binary, List.append_assoc,
    List.cons_append, List.nil_append]
  rw [h.asReceiver, read_cons rfl rfl, hright _ _ hfree]
  exact read_cons rfl rfl

theorem assignment (h : left.IsRead) (hright : right.IsRead) (info : Info) {op : BinaryOp}
    (hop : op.isAssignment = true) (opSpan : Span) :
    (Expr.binary info op opSpan left right).IsRead := by
  intro pending rest hfree
  have hrest := hfree.closed hop
  have hright' : right.StandsFree (.left left.bare op :: pending) rest :=
    standsFree_of_isCloser (forall_mem_head?_cons rfl) hrest
  simp only [Expr.tokens_binary, binaryTokens_of_isAssignment hop, Expr.bare_binary,
    List.append_assoc, List.cons_append]
  rw [h.asLeft op _ (hfree.noSign hop), hright _ _ hright', read_absorb rfl hrest]

theorem operation (h : left.IsRead) (hright : right.IsRead) (info : Info) {op : BinaryOp}
    (hop : op.isAssignment = false) (hindex : op ≠ .index) (opSpan : Span) :
    (Expr.binary info op opSpan left right).IsRead := by
  intro pending rest _
  simp only [Expr.tokens_binary, binaryTokens_of_ne_index hop hindex, Expr.bare_binary,
    List.append_assoc, List.cons_append, List.nil_append]
  rw [read_cons rfl rfl, h.asLeft op _ (forall_mem_head?_cons rfl),
    hright.asOperand _ (forall_mem_head?_cons rfl)]
  exact read_cons rfl rfl

theorem binary (h : left.IsRead) (hright : right.IsRead) (info : Info) (op : BinaryOp)
    (opSpan : Span) : (Expr.binary info op opSpan left right).IsRead := by
  cases hop : op.isAssignment with
  | true => exact h.assignment hright info hop opSpan
  | false =>
      by_cases hindex : op = .index
      · subst hindex
        exact h.subscript hright info opSpan
      · exact h.operation hright info hop hindex opSpan

end Expr.IsRead

/-! ## Words -/

theorem isDigit_of_mem_repr {n : Nat} {c : Char} (hc : c ∈ n.repr.toList) :
    c.isDigit = true :=
  Nat.isDigit_of_mem_toDigits (by decide) (by decide) (Nat.toList_repr ▸ hc)

theorem repr_toList_ne_nil (n : Nat) : n.repr.toList ≠ [] := by
  rw [Nat.toList_repr]
  exact Nat.toDigits_ne_nil

theorem Literal.print_integer {value : Int64} (h : 0 ≤ value.toInt) :
    (Literal.integer value).print = value.toInt.toNat.repr := by
  obtain ⟨n, hn⟩ := Int.eq_ofNat_of_zero_le h
  simp only [Literal.print, hn]
  rfl

theorem Expr.ofWord_integer {value : Int64} (h : 0 ≤ value.toInt) :
    Expr.ofWord (Literal.integer value).print = .literal {} (.integer value) := by
  rw [Literal.print_integer h]
  have hdigit : value.toInt.toNat.repr.toList.head?.any Char.isDigit = true := by
    cases hlist : value.toInt.toNat.repr.toList with
    | nil => exact absurd hlist (repr_toList_ne_nil _)
    | cons c rest =>
        apply isDigit_of_mem_repr (n := value.toInt.toNat)
        rw [hlist]
        exact List.mem_cons_self
  have hvalue : (value.toInt.toNat : Int) = value.toInt := Int.toNat_of_nonneg h
  unfold Expr.ofWord
  rw [if_pos hdigit, Nat.toList_repr, Nat.ofDigitChars_ten_toDigits, hvalue, Int64.ofInt_toInt]

theorem Expr.ofWord_var {name : String} (h : IsPlainName name) :
    Expr.ofWord name = .var {} name none := by
  obtain ⟨c, rest, hname, hdigit⟩ := h.start
  have hkeyword := h.notKeyword
  simp only [List.mem_cons, List.not_mem_nil, or_false, not_or] at hkeyword
  obtain ⟨hthis, hnull, htrue, hfalse⟩ := hkeyword
  unfold Expr.ofWord
  rw [hname, List.head?_cons, Option.any_some, hdigit, if_neg (by decide), if_neg hthis,
    if_neg hnull, if_neg htrue, if_neg hfalse]

theorem Expr.IsRead.word {e : Expr} {text : String} (htokens : e.tokens = [.word text])
    (hproper : (Token.word text).isProper = true) (hword : Expr.ofWord text = e.bare) :
    e.IsRead := by
  intro pending rest _
  rw [htokens, ← hword]
  exact Reading.read_cons hproper rfl

theorem Token.isProper_integer {value : Int64} (h : 0 ≤ value.toInt) :
    (Token.word (Literal.integer value).print).isProper = true := by
  rw [Literal.print_integer h]
  have hchars : ∀ c ∈ value.toInt.toNat.repr.toList, isNameChar c = true := by
    intro c hc
    simp [isNameChar, Char.isAlphanum, isDigit_of_mem_repr hc]
  simp only [Token.isProper, Bool.and_eq_true, Bool.not_eq_true', List.isEmpty_eq_false_iff]
  exact ⟨repr_toList_ne_nil _, List.all_eq_true.mpr hchars⟩

theorem IsPlainName.isProper {name : String} (h : IsPlainName name) :
    (Token.word name).isProper = true := by
  obtain ⟨c, rest, hname, -⟩ := h.start
  simp only [Token.isProper, h.chars, Bool.and_true]
  rw [hname]
  rfl

/-! ## Reading expressions back -/

theorem Expr.IsOperatorCore.isRead {e : Expr} (h : e.IsOperatorCore) : e.IsRead := by
  induction h with
  | null info => exact .word rfl (by decide) rfl
  | boolean info value =>
      cases value with
      | true => exact .word rfl (by decide) rfl
      | false => exact .word rfl (by decide) rfl
  | integer info hvalue =>
      exact .word rfl (Token.isProper_integer hvalue) (Expr.ofWord_integer hvalue)
  | var info declaredType hname => exact .word rfl hname.isProper (Expr.ofWord_var hname)
  | this info => exact .word rfl (by decide) rfl
  | property info hreceiver hname ih => exact ih.property info hname
  | methodCall info safe hreceiver hname hargs ih ihargs =>
      exact ih.methodCall info hname safe ihargs
  | binary info op opSpan hleft hright ihleft ihright => exact ihleft.binary ihright info op opSpan
  | ternary info hcondition hyes hno ihcondition ihyes ihno =>
      exact ihcondition.ternary ihyes ihno info
  | list info hitems ih => exact .list info ih
  | unary info op hoperand ih => exact ih.unary info op

theorem Expr.IsOperatorCore.read_tokens {e : Expr} (h : e.IsOperatorCore) :
    (Reading.awaiting []).read e.tokens = some e.bare := by
  have hfree : e.StandsFree [] [] :=
    standsFree_of_isCloser (fun _ htop => nomatch htop) fun _ htoken => nomatch htoken
  have hread := h.isRead [] [] hfree
  rw [List.append_nil] at hread
  exact hread

/-- Two expressions that are printed alike, with whatever tables, differ in positions, facts and
declared types only. -/
theorem bare_eq_of_print_eq {types types' : TypeTable} {a b : Expr} (ha : a.IsOperatorCore)
    (hb : b.IsOperatorCore) (hprint : a.print types = b.print types') : a.bare = b.bare := by
  have hread := ha.read_tokens
  have hread' := hb.read_tokens
  have hspell : spell a.tokens = spell b.tokens := by
    rw [← toList_print types ha, ← toList_print types' hb, hprint]
  have htokens : a.tokens = b.tokens :=
    (Reading.spaced_of_read hread).1.eq_of_spell_eq (Reading.spaced_of_read hread').1 hspell
  rw [htokens, hread'] at hread
  exact (Option.some.inj hread).symm

def guardedRow (info : Info) (type : Option TypeId) : Expr :=
  .ternary info (.unary info .not (.var info "done" type))
    (.binary info .index info.span
      (.methodCall info (.var info "rows" type) "get" [.literal info (.integer 7)] true false)
      (.literal info (.integer 0)))
    (.binary info .assign info.span (.var info "left" type)
      (.unary info .negate (.property info (.this info) "width")))

theorem bare_eq_of_print_eq_guardedRow :
    let placed := guardedRow { span := ⟨3, 14⟩, facts := .ofInferredType .int } (some .list)
    placed.IsOperatorCore ∧ (guardedRow {} none).IsOperatorCore ∧
      placed.print .initial = "!done ? rows?.get(7)[0] : (left = -this.width)" ∧
      (guardedRow {} none).print .initial = placed.print .initial ∧
      placed.bare = (guardedRow {} none).bare := by
  have hplain : ∀ name ∈ ["done", "rows", "get", "left", "width"], IsPlainName name := by
    intro name hname
    simp only [List.mem_cons, List.not_mem_nil, or_false] at hname
    rcases hname with rfl | rfl | rfl | rfl | rfl <;>
      exact ⟨⟨_, _, rfl, by decide⟩, by decide, by decide⟩
  have hcore : ∀ info type, (guardedRow info type).IsOperatorCore := by
    intro info type
    have hcall : (Expr.methodCall info (.var info "rows" type) "get"
        [.literal info (.integer 7)] true false).IsOperatorCore := by
      refine .methodCall info true (.var info type (hplain _ (by decide))) (hplain _ (by decide)) ?_
      intro arg harg
      rw [List.mem_singleton] at harg
      subst harg
      exact .integer info (by decide)
    have hwidth : (Expr.property info (.this info) "width").IsOperatorCore :=
      .property info (.this info) (hplain _ (by decide))
    exact .ternary info (.unary info .not (.var info type (hplain _ (by decide))))
      (.binary info .index info.span hcall (.integer info (by decide)))
      (.binary info .assign info.span (.var info type (hplain _ (by decide)))
        (.unary info .negate hwidth))
  intro placed
  have hprint : (guardedRow {} none).print .initial = placed.print .initial := rfl
  have hbare := bare_eq_of_print_eq (hcore _ _) (hcore _ _) hprint
  exact ⟨hcore _ _, hcore _ _, by decide +kernel, hprint, hbare.symm⟩

end StaticDispatch
