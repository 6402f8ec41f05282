import StaticDispatch.Lowering.Session

/-!
# Keyword constructors

`new T(a: 1, b: 2)` through a map constructor that the resolver added becomes
the call of a closure that makes a blank `T` and sets its properties in turn:
`{ -> T obj$0 = new T(); obj$0.a = 1; obj$0.b = 2; return obj$0 }.call()`.
A constructor that the programmer wrote is never passed over.
-/

namespace StaticDispatch

/-- The owner of a constructor that takes one map and that the programmer did not write. -/
def mapConstructorOwner? (types : TypeTable) (ctor : MethodId) : Option TypeId :=
  match types.method? ctor with
  | some { owner, params := [param], .. } =>
    if types.isSubtype param.type .map && !types.isDeclaredConstructor ctor then some owner
    else none
  | _ => none

/-- The entries of a map literal that is the only argument and has string literals for
all its keys. -/
def keywordEntries? : List Expr → Option (List Entry)
  | [.map _ entries] =>
    if entries.all fun entry => entry.key.stringLiteral?.isSome then some entries else none
  | _ => none

/-- The type to build and the properties to set, when the call passes keywords to a map
constructor that the resolver added. -/
def keywordConstructor? (types : TypeTable) (info : Info) (args : List Expr) :
    Option (TypeId × List Entry) :=
  match info.facts.targetConstructor? with
  | none => none
  | some ctor =>
    match mapConstructorOwner? types ctor, keywordEntries? args with
    | some owner, some entries => some (owner, entries)
    | _, _ => none

/-! ## The initializer -/

/-- `new T()` -/
def blankInstance (span : Span) (owner : TypeId) : Expr :=
  .constructorCall
    { span
      facts := { callTarget := some (.defaultConstructor owner), inferredType := some owner } }
    owner []

def localReference (span : Span) (owner : TypeId) (name : String) : Expr :=
  .var span.info name (some owner)

/-- The assignment of an entry's value to the property that its key names. -/
def setProperty? (owner : TypeId) (name : String) : Entry → Option Stmt
  | .mk key value span =>
    key.stringLiteral?.map fun property =>
      .expr (.binary span.info .assign span
        (.property span.info (localReference span owner name) property) value)

def initializerBody (span : Span) (owner : TypeId) (name : String) (entries : List Entry) :
    Block :=
  .expr (.declaration span.info name (some owner) (blankInstance span owner))
    :: entries.filterMap (setProperty? owner name)
    ++ [.ret (some (localReference span owner name)) span]

/-- The call of the closure with this body and scope. -/
def initializerCall (info : Info) (owner : TypeId) (body : Block) (scope : VariableScope) :
    Expr :=
  .methodCall
    { span := info.span
      facts :=
        { callTarget := some .closureCall
          inferredType := some (info.facts.inferredType.getD owner) } }
    (.closure (.typed info.span (some .closure)) [] body (some scope))
    "call" [] false false

def lowerConstructorCall (settings : Settings) (info : Info) (type : TypeId)
    (args : List Expr) : LowerM Expr :=
  match keywordConstructor? settings.types info args with
  | some (owner, entries) =>
    if settings.config.isEnabled .namedConstructors then do
      let name ← freshName settings.config.localStem
      count { namedConstructors := 1 }
      let body := initializerBody info.span owner name entries
      let scope ← registerScope [] body
      return initializerCall info owner body scope
    else return .constructorCall info type args
  | none => return .constructorCall info type args

end StaticDispatch
