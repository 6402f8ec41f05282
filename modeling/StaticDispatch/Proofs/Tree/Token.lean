import StaticDispatch.Tree.Printer

/-!
# Tokens of printed expressions

The pieces that the text of an expression is put together from, and how they
are taken apart again.  A name ends where no character of a name follows; the
name of a method is told from that of a property by the parenthesis after it.
A text has one list of tokens in which names are kept apart in this way.
-/

namespace StaticDispatch

/-! ## Names -/

/-- An ASCII letter, a digit or an underscore. -/
def isNameChar (c : Char) : Bool :=
  c.isAlphanum || c == '_'

/-- The text does not go on with a name, and not with a parenthesis. -/
def IsBeyondName (text : List Char) : Prop :=
  ∀ c ∈ text.head?, isNameChar c = false ∧ c ≠ '('

section Names

variable {name text : List Char}

theorem takeWhile_isNameChar (hname : name.all isNameChar = true) (htext : IsBeyondName text) :
    (name ++ text).takeWhile isNameChar = name := by
  rw [List.takeWhile_append_of_pos (List.all_eq_true.mp hname)]
  cases text with
  | nil => exact List.append_nil name
  | cons c text =>
      have hc := (htext c rfl).1
      rw [List.takeWhile_cons_of_neg (by simp [hc]), List.append_nil]

theorem dropWhile_isNameChar (hname : name.all isNameChar = true) (htext : IsBeyondName text) :
    (name ++ text).dropWhile isNameChar = text := by
  rw [List.dropWhile_append_of_pos (List.all_eq_true.mp hname)]
  cases text with
  | nil => rfl
  | cons c text =>
      have hc := (htext c rfl).1
      exact List.dropWhile_cons_of_neg (by simp [hc])

end Names

/-! ## Tokens -/

def Arithmetic.all : List Arithmetic :=
  [.plus, .minus, .multiply, .divide, .mod, .power, .leftShift, .rightShift,
    .unsignedRightShift, .bitAnd, .bitOr, .xor]

/-- What stands between two operands, with a blank on either side. -/
inductive Separator where
  | operator (op : BinaryOp)
  | question
  | colon
deriving DecidableEq

namespace Separator

def chars : Separator → List Char
  | .operator op => op.symbol.toList
  | .question => ['?']
  | .colon => [':']

def all : List Separator :=
  [.question, .colon, .operator .assign, .operator .and, .operator .or, .operator .index]
    ++ Arithmetic.all.flatMap (fun op => [.operator (.compound op), .operator (.arithmetic op)])
    ++ Comparison.all.map fun op => .operator (.comparison op)

def ofChars? (text : List Char) : Option Separator :=
  all.find? fun sep => sep.chars == text

theorem mem_all (sep : Separator) : sep ∈ all := by
  cases sep with
  | question => decide
  | colon => decide
  | operator op =>
      cases op with
      | compound op => cases op <;> decide
      | arithmetic op => cases op <;> decide
      | comparison op => cases op <;> decide
      | _ => decide

theorem ofChars?_chars (sep : Separator) : ofChars? sep.chars = some sep := by
  have hall : ∀ sep ∈ all, ofChars? sep.chars = some sep := by decide
  exact hall sep sep.mem_all

theorem chars_ne_blank (sep : Separator) : ∀ c ∈ sep.chars, (c != ' ') = true := by
  have hall : all.all (fun sep => sep.chars.all (· != ' ')) = true := by decide
  exact List.all_eq_true.mp (List.all_eq_true.mp hall sep sep.mem_all)

end Separator

inductive Token where
  /-- A name, a keyword or a numeral. -/
  | word (text : String)
  | member (name : String)
  /-- The name of a method with the parenthesis that opens its arguments. -/
  | callee (safe : Bool) (name : String)
  | opening
  | closing
  | listOpening
  | listClosing
  | comma
  | sign (op : UnaryOp)
  | between (sep : Separator)
deriving DecidableEq

namespace Token

def chars : Token → List Char
  | .word text => text.toList
  | .member name => '.' :: name.toList
  | .callee safe name => (callMark safe false).toList ++ name.toList ++ ['(']
  | .opening => ['(']
  | .closing => [')']
  | .listOpening => ['[']
  | .listClosing => [']']
  | .comma => [',', ' ']
  | .sign op => op.symbol.toList
  | .between sep => ' ' :: sep.chars ++ [' ']

/-- The names in the token are made of characters for names. -/
def isProper : Token → Bool
  | .word text => !text.toList.isEmpty && text.toList.all isNameChar
  | .member name => name.toList.all isNameChar
  | .callee _ name => name.toList.all isNameChar
  | _ => true

def endsInName : Token → Bool
  | .word _ => true
  | .member _ => true
  | _ => false

end Token

/-- The text of a list of tokens. -/
def spell (tokens : List Token) : List Char :=
  tokens.flatMap Token.chars

@[simp]
theorem spell_nil : spell [] = [] :=
  rfl

@[simp]
theorem spell_cons (token : Token) (tokens : List Token) :
    spell (token :: tokens) = token.chars ++ spell tokens :=
  List.flatMap_cons

@[simp]
theorem spell_append (tokens more : List Token) :
    spell (tokens ++ more) = spell tokens ++ spell more :=
  List.flatMap_append

theorem spell_word (text : String) : spell [.word text] = text.toList :=
  List.append_nil _

/-! ## Taking a text apart -/

/-- The token of a name behind a dot and what follows it. -/
def splitMember (safe : Bool) (text : List Char) : Token × List Char :=
  let name := String.ofList (text.takeWhile isNameChar)
  match text.dropWhile isNameChar with
  | '(' :: rest => (.callee safe name, rest)
  | rest => (.member name, rest)

/-- The first token of a text and what follows it. -/
def nextToken? : List Char → Option (Token × List Char)
  | [] => none
  | c :: rest =>
      if isNameChar c then
        some (.word (String.ofList ((c :: rest).takeWhile isNameChar)),
          (c :: rest).dropWhile isNameChar)
      else
        match c with
        | '.' => some (splitMember false rest)
        | '?' => some (splitMember true rest.tail)
        | '(' => some (.opening, rest)
        | ')' => some (.closing, rest)
        | '[' => some (.listOpening, rest)
        | ']' => some (.listClosing, rest)
        | ',' => some (.comma, rest.tail)
        | '!' => some (.sign .not, rest)
        | '-' => some (.sign .negate, rest)
        | ' ' =>
            (Separator.ofChars? (rest.takeWhile (· != ' '))).map fun sep =>
              (.between sep, (rest.dropWhile (· != ' ')).tail)
        | _ => none

theorem splitMember_callee (safe : Bool) {name : String} (text : List Char)
    (hname : name.toList.all isNameChar = true) :
    splitMember safe (name.toList ++ '(' :: text) = (.callee safe name, text) := by
  have hparen : isNameChar '(' = false := by decide
  have hchars := List.all_eq_true.mp hname
  unfold splitMember
  rw [List.takeWhile_append_of_pos hchars, List.dropWhile_append_of_pos hchars,
    List.takeWhile_cons_of_neg (by simp [hparen]), List.dropWhile_cons_of_neg (by simp [hparen]),
    List.append_nil, String.ofList_toList]
  rfl

theorem splitMember_member (safe : Bool) {name : String} {text : List Char}
    (hname : name.toList.all isNameChar = true) (htext : IsBeyondName text) :
    splitMember safe (name.toList ++ text) = (.member name, text) := by
  unfold splitMember
  rw [takeWhile_isNameChar hname htext, dropWhile_isNameChar hname htext, String.ofList_toList]
  cases text with
  | nil => rfl
  | cons c text =>
      have hparen := (htext c rfl).2
      split
      · rename_i heq
        exact absurd (List.cons.inj heq).1 hparen
      · rfl

theorem nextToken?_word {text : String} {rest : List Char}
    (hproper : (Token.word text).isProper = true) (hrest : IsBeyondName rest) :
    nextToken? (text.toList ++ rest) = some (.word text, rest) := by
  simp only [Token.isProper, Bool.and_eq_true] at hproper
  obtain ⟨hne, hname⟩ := hproper
  have htake := takeWhile_isNameChar hname hrest
  have hdrop := dropWhile_isNameChar hname hrest
  cases htext : text.toList with
  | nil => simp [htext] at hne
  | cons c more =>
      rw [htext] at hname htake hdrop
      have hc : isNameChar c = true := by
        simp only [List.all_cons, Bool.and_eq_true] at hname
        exact hname.1
      rw [List.cons_append] at htake hdrop ⊢
      simp only [nextToken?, if_pos hc, htake, hdrop]
      rw [← htext, String.ofList_toList]

/-- A token in front of a text is its first one, where a name in it ends with it. -/
theorem nextToken?_chars {token : Token} {rest : List Char} (hproper : token.isProper = true)
    (hrest : token.endsInName = true → IsBeyondName rest) :
    nextToken? (token.chars ++ rest) = some (token, rest) := by
  cases token with
  | word text => exact nextToken?_word hproper (hrest rfl)
  | member name =>
      have hsplit := splitMember_member false hproper (hrest rfl)
      exact congrArg some hsplit
  | callee safe name =>
      have hsplit := splitMember_callee safe rest hproper
      have hchars : (Token.callee safe name).chars ++ rest =
          (callMark safe false).toList ++ (name.toList ++ '(' :: rest) := by
        simp [Token.chars]
      rw [hchars]
      cases safe with
      | true => exact congrArg some hsplit
      | false => exact congrArg some hsplit
  | opening => rfl
  | closing => rfl
  | listOpening => rfl
  | listClosing => rfl
  | comma => rfl
  | sign op =>
      cases op with
      | not => rfl
      | negate => rfl
  | between sep =>
      have hne := sep.chars_ne_blank
      have htext : (Token.between sep).chars ++ rest = ' ' :: (sep.chars ++ ' ' :: rest) := by
        simp [Token.chars]
      have htake : (sep.chars ++ ' ' :: rest).takeWhile (· != ' ') = sep.chars := by
        rw [List.takeWhile_append_of_pos hne, List.takeWhile_cons_of_neg (by decide),
          List.append_nil]
      have hdrop : (sep.chars ++ ' ' :: rest).dropWhile (· != ' ') = ' ' :: rest := by
        rw [List.dropWhile_append_of_pos hne, List.dropWhile_cons_of_neg (by decide)]
      have hblank : isNameChar ' ' = false := by decide
      rw [htext]
      simp only [nextToken?, hblank, htake, hdrop, sep.ofChars?_chars]
      rfl

/-- The tokens are proper, and behind each name comes something that ends it. -/
def Spaced : List Token → Prop
  | [] => True
  | token :: tokens =>
      token.isProper = true ∧ (token.endsInName = true → IsBeyondName (spell tokens)) ∧
        Spaced tokens

/-- A text is made of one list of tokens. -/
theorem Spaced.eq_of_spell_eq {tokens others : List Token} (h : Spaced tokens)
    (hothers : Spaced others) (hspell : spell tokens = spell others) : tokens = others := by
  induction tokens generalizing others with
  | nil =>
      cases others with
      | nil => rfl
      | cons other others =>
          obtain ⟨hproper, hrest, -⟩ := hothers
          have hnext := nextToken?_chars hproper hrest
          rw [← spell_cons, ← hspell] at hnext
          cases hnext
  | cons token tokens ih =>
      obtain ⟨hproper, hrest, htokens⟩ := h
      have hnext := nextToken?_chars hproper hrest
      cases others with
      | nil =>
          rw [← spell_cons, hspell] at hnext
          cases hnext
      | cons other others =>
          obtain ⟨hproper', hrest', hothers'⟩ := hothers
          have hnext' := nextToken?_chars hproper' hrest'
          rw [← spell_cons, hspell, spell_cons, hnext'] at hnext
          obtain ⟨rfl, htext⟩ := Prod.mk.inj (Option.some.inj hnext)
          rw [ih htokens hothers' htext.symm]

end StaticDispatch
