import StaticDispatch.Proofs.Tree.Token

/-!
# Expressions of operators and members

The expressions from variables, keywords, whole numbers, members, operators
and lists, and the tokens that their text is made of.
-/

namespace StaticDispatch

/-! ## The expressions -/

/-- ASCII letters, digits and underscores, a letter or an underscore first; no keyword. -/
structure IsPlainName (name : String) : Prop where
  start : ∃ c rest, name.toList = c :: rest ∧ c.isDigit = false
  chars : name.toList.all isNameChar = true
  notKeyword : name ∉ ["this", "null", "true", "false"]

inductive Expr.IsOperatorCore : Expr → Prop
  | null (info : Info) : (Expr.literal info .null).IsOperatorCore
  | boolean (info : Info) (value : Bool) : (Expr.literal info (.boolean value)).IsOperatorCore
  | integer (info : Info) {value : Int64} (hvalue : 0 ≤ value.toInt) :
      (Expr.literal info (.integer value)).IsOperatorCore
  | var (info : Info) {name : String} (declaredType : Option TypeId)
      (hname : IsPlainName name) : (Expr.var info name declaredType).IsOperatorCore
  | this (info : Info) : (Expr.this info).IsOperatorCore
  | property (info : Info) {receiver : Expr} {name : String}
      (hreceiver : receiver.IsOperatorCore) (hname : IsPlainName name) :
      (Expr.property info receiver name).IsOperatorCore
  | methodCall (info : Info) {receiver : Expr} {name : String} {args : List Expr} (safe : Bool)
      (hreceiver : receiver.IsOperatorCore) (hname : IsPlainName name)
      (hargs : ∀ arg ∈ args, arg.IsOperatorCore) :
      (Expr.methodCall info receiver name args safe false).IsOperatorCore
  | binary (info : Info) (op : BinaryOp) (opSpan : Span) {left right : Expr}
      (hleft : left.IsOperatorCore) (hright : right.IsOperatorCore) :
      (Expr.binary info op opSpan left right).IsOperatorCore
  | ternary (info : Info) {condition yes no : Expr} (hcondition : condition.IsOperatorCore)
      (hyes : yes.IsOperatorCore) (hno : no.IsOperatorCore) :
      (Expr.ternary info condition yes no).IsOperatorCore
  | list (info : Info) {items : List Expr} (hitems : ∀ item ∈ items, item.IsOperatorCore) :
      (Expr.list info items).IsOperatorCore
  | unary (info : Info) (op : UnaryOp) {operand : Expr} (hoperand : operand.IsOperatorCore) :
      (Expr.unary info op operand).IsOperatorCore

mutual

/-- The expression without positions, facts and declared types. -/
def Expr.bare : Expr → Expr
  | .literal _ value => .literal {} value
  | .var _ name _ => .var {} name none
  | .this _ => .this {}
  | .property _ receiver name => .property {} receiver.bare name
  | .methodCall _ receiver name args safe spread =>
      .methodCall {} receiver.bare name (bareExprs args) safe spread
  | .binary _ op _ left right => .binary {} op {} left.bare right.bare
  | .ternary _ condition yes no => .ternary {} condition.bare yes.bare no.bare
  | .list _ items => .list {} (bareExprs items)
  | .unary _ op operand => .unary {} op operand.bare
  | e => e

def bareExprs : List Expr → List Expr
  | [] => []
  | e :: rest => e.bare :: bareExprs rest

end

section Bare

variable (info : Info) (receiver left right condition yes no operand : Expr) (name : String)

@[simp]
theorem Expr.bare_property :
    (Expr.property info receiver name).bare = .property {} receiver.bare name :=
  rfl

@[simp]
theorem Expr.bare_methodCall (args : List Expr) (safe spread : Bool) :
    (Expr.methodCall info receiver name args safe spread).bare =
      .methodCall {} receiver.bare name (bareExprs args) safe spread :=
  rfl

@[simp]
theorem Expr.bare_binary (op : BinaryOp) (opSpan : Span) :
    (Expr.binary info op opSpan left right).bare = .binary {} op {} left.bare right.bare :=
  rfl

@[simp]
theorem Expr.bare_ternary : (Expr.ternary info condition yes no).bare =
    .ternary {} condition.bare yes.bare no.bare :=
  rfl

@[simp]
theorem Expr.bare_list (items : List Expr) :
    (Expr.list info items).bare = .list {} (bareExprs items) :=
  rfl

@[simp]
theorem Expr.bare_unary (op : UnaryOp) :
    (Expr.unary info op operand).bare = .unary {} op operand.bare :=
  rfl

@[simp]
theorem bareExprs_nil : bareExprs [] = [] :=
  rfl

@[simp]
theorem bareExprs_cons (e : Expr) (rest : List Expr) :
    bareExprs (e :: rest) = e.bare :: bareExprs rest :=
  rfl

end Bare

/-! ## Their tokens -/

def groupedIf (condition : Bool) (tokens : List Token) : List Token :=
  if condition then .opening :: tokens ++ [.closing] else tokens

def commaTokens (items : List (List Token)) : List Token :=
  [Token.comma].intercalate items

theorem commaTokens_singleton (item : List Token) : commaTokens [item] = item :=
  List.intercalate_singleton

theorem commaTokens_cons_cons (item other : List Token) (items : List (List Token)) :
    commaTokens (item :: other :: items) = item ++ .comma :: commaTokens (other :: items) := by
  unfold commaTokens
  rw [List.intercalate_cons_cons, List.append_assoc, List.singleton_append]

def binaryTokens (op : BinaryOp) (receiver left right operand : List Token) : List Token :=
  match op with
  | .index => receiver ++ .listOpening :: right ++ [.listClosing]
  | .assign => left ++ .between (.operator op) :: right
  | .compound _ => left ++ .between (.operator op) :: right
  | _ => .opening :: left ++ .between (.operator op) :: operand ++ [.closing]

theorem binaryTokens_of_isAssignment {op : BinaryOp} (hop : op.isAssignment = true)
    (receiver left right operand : List Token) :
    binaryTokens op receiver left right operand = left ++ .between (.operator op) :: right := by
  cases op with
  | assign => rfl
  | compound op => rfl
  | _ => cases hop

theorem binaryTokens_of_ne_index {op : BinaryOp} (hop : op.isAssignment = false)
    (hindex : op ≠ .index) (receiver left right operand : List Token) :
    binaryTokens op receiver left right operand =
      .opening :: left ++ .between (.operator op) :: operand ++ [.closing] := by
  cases op with
  | assign => cases hop
  | compound op => cases hop
  | index => exact absurd rfl hindex
  | _ => rfl

mutual

def Expr.tokens : Expr → List Token
  | .literal _ value => [.word value.print]
  | .var _ name _ => [.word name]
  | .this _ => [.word "this"]
  | .property _ receiver name =>
      groupedIf receiver.isOpenReceiver receiver.tokens ++ [.member name]
  | .methodCall _ receiver name args safe _ =>
      groupedIf receiver.isOpenReceiver receiver.tokens ++ .callee safe name ::
        commaTokens (exprsTokens args) ++ [.closing]
  | .binary _ op _ left right =>
      binaryTokens op (groupedIf left.isOpenReceiver left.tokens)
        (groupedIf left.isOpenOperand left.tokens) right.tokens
        (groupedIf right.isOpenOperand right.tokens)
  | .ternary _ condition yes no =>
      groupedIf condition.isOpenOperand condition.tokens ++ .between .question ::
        groupedIf yes.isOpenOperand yes.tokens ++ .between .colon ::
        groupedIf no.isOpenOperand no.tokens
  | .list _ items => .listOpening :: commaTokens (exprsTokens items) ++ [.listClosing]
  | .unary _ op operand => .sign op :: groupedIf operand.isOpenOperand operand.tokens
  | _ => []

def exprsTokens : List Expr → List (List Token)
  | [] => []
  | e :: rest => e.tokens :: exprsTokens rest

end

section Tokens

variable (info : Info) (receiver left right condition yes no operand : Expr) (name : String)

@[simp]
theorem Expr.tokens_property : (Expr.property info receiver name).tokens =
    groupedIf receiver.isOpenReceiver receiver.tokens ++ [.member name] :=
  rfl

@[simp]
theorem Expr.tokens_methodCall (args : List Expr) (safe spread : Bool) :
    (Expr.methodCall info receiver name args safe spread).tokens =
      groupedIf receiver.isOpenReceiver receiver.tokens ++ .callee safe name ::
        commaTokens (exprsTokens args) ++ [.closing] :=
  rfl

@[simp]
theorem Expr.tokens_binary (op : BinaryOp) (opSpan : Span) :
    (Expr.binary info op opSpan left right).tokens =
      binaryTokens op (groupedIf left.isOpenReceiver left.tokens)
        (groupedIf left.isOpenOperand left.tokens) right.tokens
        (groupedIf right.isOpenOperand right.tokens) :=
  rfl

@[simp]
theorem Expr.tokens_ternary : (Expr.ternary info condition yes no).tokens =
    groupedIf condition.isOpenOperand condition.tokens ++ .between .question ::
      groupedIf yes.isOpenOperand yes.tokens ++ .between .colon ::
      groupedIf no.isOpenOperand no.tokens :=
  rfl

@[simp]
theorem Expr.tokens_list (items : List Expr) : (Expr.list info items).tokens =
    .listOpening :: commaTokens (exprsTokens items) ++ [.listClosing] :=
  rfl

@[simp]
theorem Expr.tokens_unary (op : UnaryOp) : (Expr.unary info op operand).tokens =
    .sign op :: groupedIf operand.isOpenOperand operand.tokens :=
  rfl

@[simp]
theorem exprsTokens_cons (e : Expr) (rest : List Expr) :
    exprsTokens (e :: rest) = e.tokens :: exprsTokens rest :=
  rfl

end Tokens

/-! ## The text of the tokens -/

theorem toList_parenthesizedIf (condition : Bool) {text : String} {tokens : List Token}
    (h : text.toList = spell tokens) :
    (parenthesizedIf condition text).toList = spell (groupedIf condition tokens) := by
  cases condition with
  | false => exact h
  | true => simp [parenthesizedIf, groupedIf, Token.chars, h]

theorem toList_commaSeparated {texts : List String} {items : List (List Token)}
    (h : texts.map String.toList = items.map spell) :
    (commaSeparated texts).toList = spell (commaTokens items) := by
  unfold commaSeparated
  rw [String.toList_intercalate, h]
  clear h
  induction items with
  | nil => rfl
  | cons item items ih =>
      cases items with
      | nil => rw [commaTokens_singleton, List.map_singleton, List.intercalate_singleton]
      | cons other items =>
          rw [commaTokens_cons_cons, spell_append, spell_cons, ← ih, List.map_cons,
            List.map_cons, List.intercalate_cons_cons, List.append_assoc]
          rfl

theorem toList_printBinary (op : BinaryOp) {receiver left right operand : String}
    {receiver' left' right' operand' : List Token} (hreceiver : receiver.toList = spell receiver')
    (hleft : left.toList = spell left') (hright : right.toList = spell right')
    (hoperand : operand.toList = spell operand') :
    (printBinary op receiver left right operand).toList =
      spell (binaryTokens op receiver' left' right' operand') := by
  cases op with
  | index => simp [printBinary, binaryTokens, Token.chars, hreceiver, hright]
  | assign => simp [printBinary, binaryTokens, Token.chars, Separator.chars, hleft, hright]
  | compound op => simp [printBinary, binaryTokens, Token.chars, Separator.chars, hleft, hright]
  | _ => simp [printBinary, binaryTokens, Token.chars, Separator.chars, hleft, hoperand]

theorem map_toList_printExprs (types : TypeTable) {es : List Expr}
    (h : ∀ e ∈ es, (e.print types).toList = spell e.tokens) :
    (printExprs types es).map String.toList = (exprsTokens es).map spell := by
  induction es with
  | nil => rfl
  | cons e es ih =>
      simp only [printExprs, exprsTokens_cons, List.map_cons]
      rw [h e List.mem_cons_self, ih fun e he => h e (List.mem_cons_of_mem _ he)]

theorem toList_print (types : TypeTable) {e : Expr} (h : e.IsOperatorCore) :
    (e.print types).toList = spell e.tokens := by
  induction h with
  | null info => exact (spell_word _).symm
  | boolean info value => exact (spell_word _).symm
  | integer info hvalue => exact (spell_word _).symm
  | var info declaredType hname => exact (spell_word _).symm
  | this info => exact (spell_word _).symm
  | @property info receiver name hreceiver hname ih =>
      have hgroup := toList_parenthesizedIf receiver.isOpenReceiver ih
      simp [Expr.print, Token.chars, hgroup]
  | @methodCall info receiver name args safe hreceiver hname hargs ih ihargs =>
      have hgroup := toList_parenthesizedIf receiver.isOpenReceiver ih
      have hitems := toList_commaSeparated (map_toList_printExprs types ihargs)
      simp [Expr.print, Token.chars, printArguments, hgroup, hitems]
  | @binary info op opSpan left right hleft hright ihleft ihright =>
      simp only [Expr.print, Expr.tokens_binary]
      exact toList_printBinary op (toList_parenthesizedIf left.isOpenReceiver ihleft)
        (toList_parenthesizedIf left.isOpenOperand ihleft) ihright
        (toList_parenthesizedIf right.isOpenOperand ihright)
  | @ternary info condition yes no hcondition hyes hno ihcondition ihyes ihno =>
      have hgroup := toList_parenthesizedIf condition.isOpenOperand ihcondition
      have hgroup' := toList_parenthesizedIf yes.isOpenOperand ihyes
      have hgroup'' := toList_parenthesizedIf no.isOpenOperand ihno
      simp [Expr.print, Token.chars, Separator.chars, hgroup, hgroup', hgroup'']
  | @list info items hitems ih =>
      have htexts := toList_commaSeparated (map_toList_printExprs types ih)
      simp [Expr.print, Token.chars, htexts]
  | @unary info op operand hoperand ih =>
      have hgroup := toList_parenthesizedIf operand.isOpenOperand ih
      simp [Expr.print, Token.chars, hgroup]

end StaticDispatch
