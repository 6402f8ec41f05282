import StaticDispatch.Proofs.Lowering.StaticType

/-!
# Static types that lowering keeps

The array rule asks for the static type of a receiver that is lowered already,
and finds what it would have found before, but for one kind of call.  The
conditional that stands for a safe call has the inferred type of the call; a
call without one has the type that its target returns, which the conditional
shares with the `Object` of its null branch only if it is `Object` itself.
Such a call has no static type any more, nor has a property that it owns.
-/

namespace StaticDispatch

open LowerM

/-- Expressions whose static type comes from a declaration or a resolver.  What the operand of
a cast and the receiver and the arguments of a call are does not matter to it. -/
inductive Expr.IsAccess : Expr → Prop
  | var (info : Info) (name : String) (declaredType : Option TypeId) :
      (Expr.var info name declaredType).IsAccess
  | this (info : Info) : (Expr.this info).IsAccess
  | classRef (info : Info) (type : TypeId) : (Expr.classRef info type).IsAccess
  | property (info : Info) {receiver : Expr} (name : String) (hreceiver : receiver.IsAccess) :
      (Expr.property info receiver name).IsAccess
  | cast (info : Info) (type : TypeId) (operand : Expr) : (Expr.cast info type operand).IsAccess
  | methodCall (info : Info) (receiver : Expr) {name : String} (args : List Expr)
      (safe spread : Bool) (hget : name ≠ "getAt") (hput : name ≠ "putAt") :
      (Expr.methodCall info receiver name args safe spread).IsAccess
  | staticCall (info : Info) (owner : TypeId) (name : String) (args : List Expr) :
      (Expr.staticCall info owner name args).IsAccess

/-- The static type of the expression hangs on a safe call that is lowered and that has no
inferred type and no target with the type `Object`. -/
def Expr.losesType (settings : Settings) : Expr → Bool
  | .property info receiver _ => info.facts.inferredType.isNone && receiver.losesType settings
  | .methodCall info _ _ _ safe _ =>
      safe && settings.config.isEnabled .safeNavigation && info.facts.inferredType.isNone &&
        info.facts.callType? settings.types != some .object
  | _ => false

theorem joinTypes_object (type : Option TypeId) :
    joinTypes type (some .object) = if type = some .object then type else none := by
  cases type with
  | none => rfl
  | some t =>
      simp only [joinTypes, Option.some.injEq]

theorem elementType?_eq_none {types : TypeTable} {name : String} {receiver : Option TypeId}
    {args : List (Option TypeId)} (hget : name ≠ "getAt") (hput : name ≠ "putAt") :
    elementType? types name receiver args = none := by
  unfold elementType?
  split
  · simp [hget]
  · simp [hput]
  · rfl

section Types

variable (settings : Settings) (cls : TypeId)

theorem plainCallType?_of_ne (info : Info) {name : String} (receiver : Option TypeId)
    (args : List (Option TypeId)) (hget : name ≠ "getAt") (hput : name ≠ "putAt") :
    plainCallType? settings info name receiver args =
      (info.facts.inferredType <|> info.facts.callType? settings.types) := by
  unfold plainCallType?
  simp only [elementType?_eq_none hget hput, Option.getD_none, ite_self]

/-- A call that is no access to an element keeps its type or loses it. -/
theorem methodCallType?_of_ne (info : Info) (receiver : Expr) {name : String}
    (args : List Expr) (safe spread : Bool) (receiverType : Option TypeId)
    (argTypes : List (Option TypeId)) (hget : name ≠ "getAt") (hput : name ≠ "putAt") :
    methodCallType? settings info name safe receiverType argTypes =
      if (Expr.methodCall info receiver name args safe spread).losesType settings then none
      else info.facts.inferredType <|> info.facts.callType? settings.types := by
  unfold methodCallType?
  rw [plainCallType?_of_ne settings info receiverType argTypes hget hput, joinTypes_object]
  cases safe with
  | false => simp [Expr.losesType]
  | true =>
      cases hinferred : info.facts.inferredType with
      | some type => simp [Expr.losesType, hinferred]
      | none =>
          cases henabled : settings.config.isEnabled .safeNavigation with
          | false => simp [Expr.losesType, henabled]
          | true => simp [Expr.losesType, hinferred, henabled]

theorem yields_lower_staticType?_of_isAccess {e : Expr} (h : e.IsAccess) :
    Yields (e.lower settings cls) fun out =>
      out.staticType? settings.types cls =
        if e.losesType settings then none else e.staticType? settings.types cls := by
  induction h with
  | var info name declaredType => exact yields_pure rfl
  | this info => exact yields_pure rfl
  | classRef info type => exact yields_pure rfl
  | @property info receiver name hreceiver ih =>
      refine ih.bind fun receiver' hreceiver' => ?_
      apply yields_pure
      cases hinferred : info.facts.inferredType with
      | some type => simp [Expr.staticType?, Expr.losesType, hinferred]
      | none =>
          simp only [Expr.staticType?, Expr.losesType, hinferred, hreceiver']
          cases receiver.losesType settings with
          | false => rfl
          | true => rfl
  | cast info type operand => exact fun session => rfl
  | methodCall info receiver args safe spread hget hput =>
      intro session
      exact (yields_lowerMethodCall_staticType? settings cls info _ _ _ safe spread _).trans
        (methodCallType?_of_ne settings info receiver args safe spread _ _ hget hput)
  | staticCall info owner name args =>
      intro session
      exact yields_lowerStaticCall_staticType? settings cls info owner name _ _

/-- What the array rule makes of a receiver hangs on its static type only. -/
theorem arrayAccess?_of_staticType? {receiver receiver' : Expr}
    (h : receiver'.staticType? settings.types cls = receiver.staticType? settings.types cls)
    (name : String) (args : List Expr) :
    arrayAccess? settings.types cls receiver' name args =
      arrayAccess? settings.types cls receiver name args := by
  unfold arrayAccess? arrayComponent?
  rw [h]

theorem arrayAccess?_of_staticType?_eq_none {receiver : Expr}
    (h : receiver.staticType? settings.types cls = none) (name : String) (args : List Expr) :
    arrayAccess? settings.types cls receiver name args = none := by
  unfold arrayAccess? arrayComponent?
  rw [h]
  rfl

/-- In every session, an expression whose type a declaration or a resolver gives has the same
static type after its lowering, unless it loses it.  As the receiver of a call it is then
recognized as an array by the array rule exactly if it was one before. -/
theorem lower_keeps_staticType? {e : Expr} (h : e.IsAccess) :
    Yields (e.lower settings cls) fun out =>
      (out.staticType? settings.types cls =
        if e.losesType settings then none else e.staticType? settings.types cls) ∧
      ∀ name args, arrayAccess? settings.types cls out name args =
        if e.losesType settings then none else arrayAccess? settings.types cls e name args := by
  refine (yields_lower_staticType?_of_isAccess settings cls h).mono ?_
  intro out hout
  refine ⟨hout, fun name args => ?_⟩
  cases hloses : e.losesType settings with
  | true =>
      rw [hloses, if_pos rfl] at hout
      rw [if_pos rfl]
      exact arrayAccess?_of_staticType?_eq_none settings cls hout name args
  | false =>
      rw [hloses] at hout
      exact arrayAccess?_of_staticType? settings cls hout name args

end Types

/-- `Holder` has a field of type `int[]`, a method that returns one and a method that returns
the next holder. -/
def holderTable : TypeTable :=
  let table := (TypeTable.initial.declareClass "Holder").1
  let table := (table.arrayOf .int).1
  let table := table.declareField ⟨27⟩ "rows" ⟨28⟩
  let table := (table.declareMethod ⟨27⟩ "rows" [] ⟨28⟩ false).1
  (table.declareMethod ⟨27⟩ "next" [] ⟨27⟩ false).1

def holderSettings : Settings := ⟨holderTable, .ofTypes holderTable, {}⟩

def holderVar : Expr := .var {} "r" (some ⟨27⟩)

/-- `r?.next().rows`, where the type of the safe call is inferred. -/
def nextRows : Expr :=
  let facts : Metadata := { callTarget := some (.method ⟨8⟩), inferredType := some ⟨27⟩ }
  .property {} (.methodCall { facts } holderVar "next" [] true false) "rows"

theorem lower_keeps_staticType?_nextRows :
    nextRows.IsAccess ∧ nextRows.staticType? holderTable .object = some ⟨28⟩ ∧
      Yields (nextRows.lower holderSettings .object) fun out =>
        out.staticType? holderTable .object = some ⟨28⟩ ∧
          arrayComponent? holderTable .object out = some .int := by
  have haccess : nextRows.IsAccess :=
    .property {} "rows" (.methodCall _ _ [] true false (by decide) (by decide))
  have htype : nextRows.staticType? holderTable .object = some ⟨28⟩ := by decide +kernel
  refine ⟨haccess, htype, (lower_keeps_staticType? holderSettings .object haccess).mono ?_⟩
  rintro out ⟨hout, -⟩
  have hkept : out.staticType? holderTable .object = some ⟨28⟩ := hout.trans htype
  refine ⟨hkept, ?_⟩
  unfold arrayComponent?
  rw [hkept]
  decide +kernel

/-- `r?.rows()`, resolved but without an inferred type. -/
def rowsCall : Expr :=
  .methodCall { facts := .ofCallTarget (.method ⟨7⟩) } holderVar "rows" [] true false

def indexZero : Expr := .literal {} (.integer 0)

/-- Lowered, the call of `getAt` on `r?.rows()` is no access to an element any more. -/
theorem not_lower_keeps_staticType?_rowsCall :
    rowsCall.IsAccess ∧ rowsCall.staticType? holderTable .object = some ⟨28⟩ ∧
      (arrayAccess? holderTable .object rowsCall "getAt" [indexZero]).isSome ∧
      ((rowsCall.lower holderSettings .object).run {}).1.staticType? holderTable .object =
        none ∧
      (((Expr.methodCall {} rowsCall "getAt" [indexZero] false false).lower holderSettings
        .object).run {}).2.stats.arrayAccesses = 0 := by
  refine ⟨.methodCall _ _ [] true false (by decide) (by decide), ?_⟩
  decide +kernel

end StaticDispatch
