import StaticDispatch.Proofs.Tree.Scan

/-!
# Lexical scopes and captured names

A declaration is in force from where it stands to the end of its block, branch,
loop body or block expression, and a loop variable is in force in the body of
its loop.  The walk over a closure body keeps one list of declared names and
takes none of them out again, so that a declaration hides its name also after
it has ended.  The main statement says which occurrences of a variable make it
captured: those that no declaration in force binds and none that has ended
hides.
-/

namespace StaticDispatch

/-! ## Declarations before a place -/

/-- The names that the closures around a place have declared before it. -/
structure LocalNames where
  /-- Parameters, loop variables and declarations that are in force. -/
  inForce : List String := []
  /-- Declarations and loop variables whose block or loop is over. -/
  ended : List String := []
deriving DecidableEq, Repr

namespace LocalNames

instance : Append LocalNames :=
  ⟨fun before more => ⟨before.inForce ++ more.inForce, before.ended ++ more.ended⟩⟩

/-- What is left of the names of a block, branch or loop once it is over. -/
def close (names : LocalNames) : LocalNames :=
  { ended := names.inForce ++ names.ended }

def Has (names : LocalNames) (name : String) : Prop :=
  name ∈ names.inForce ∨ name ∈ names.ended

theorem append_eq (before more : LocalNames) :
    before ++ more = ⟨before.inForce ++ more.inForce, before.ended ++ more.ended⟩ := rfl

theorem append_assoc (a b c : LocalNames) : (a ++ b) ++ c = a ++ (b ++ c) := by
  simp only [append_eq, List.append_assoc]

theorem append_empty (names : LocalNames) : names ++ ({} : LocalNames) = names := by
  simp only [append_eq, List.append_nil]

@[simp] theorem not_has_empty (name : String) : ¬ ({} : LocalNames).Has name := by
  simp [Has]

@[simp] theorem has_append {before more : LocalNames} {name : String} :
    (before ++ more).Has name ↔ before.Has name ∨ more.Has name := by
  simp only [append_eq, Has, List.mem_append]
  exact or_or_or_comm

@[simp] theorem has_close {names : LocalNames} {name : String} :
    names.close.Has name ↔ names.Has name := by
  simp [close, Has]

@[simp] theorem has_inForce {names : List String} {name : String} :
    ({ inForce := names } : LocalNames).Has name ↔ name ∈ names := by
  simp [Has]

end LocalNames

mutual

/-- The names that the expression declares: in force are those of the scope that it stands
in, ended those of the blocks and loops inside of it.  A closure keeps its names to itself. -/
def Expr.localNames : Expr → LocalNames
  | .literal _ _ => {}
  | .var _ _ _ => {}
  | .this _ => {}
  | .classRef _ _ => {}
  | .property _ receiver _ => receiver.localNames
  | .methodCall _ receiver _ args _ _ => receiver.localNames ++ localNamesOfExprs args
  | .staticCall _ _ _ args => localNamesOfExprs args
  | .constructorCall _ _ args => localNamesOfExprs args
  | .binary _ _ _ left right => left.localNames ++ right.localNames
  | .ternary _ condition yes no =>
      (condition.localNames ++ yes.localNames) ++ no.localNames
  | .closure _ _ _ _ => {}
  | .block _ body => (localNamesOfStmts body).close
  | .map _ entries => localNamesOfEntries entries
  | .list _ items => localNamesOfExprs items
  | .declaration _ name _ initializer => initializer.localNames ++ { inForce := [name] }
  | .cast _ _ operand => operand.localNames
  | .unary _ _ operand => operand.localNames

def localNamesOfExprs : List Expr → LocalNames
  | [] => {}
  | e :: rest => e.localNames ++ localNamesOfExprs rest

def localNamesOfEntries : List Entry → LocalNames
  | [] => {}
  | .mk key value _ :: rest => (key.localNames ++ value.localNames) ++ localNamesOfEntries rest

def Stmt.localNames : Stmt → LocalNames
  | .expr value => value.localNames
  | .block body => (localNamesOfStmts body).close
  | .ret none _ => {}
  | .ret (some value) _ => value.localNames
  | .ifElse condition yes none => condition.localNames ++ (localNamesOfStmts yes).close
  | .ifElse condition yes (some no) =>
      (condition.localNames ++ (localNamesOfStmts yes).close) ++ (localNamesOfStmts no).close
  | .whileLoop condition body => condition.localNames ++ (localNamesOfStmts body).close
  | .forIn loopVar iterable body =>
      iterable.localNames ++ ({ inForce := [loopVar.name] } ++ localNamesOfStmts body).close
  | .throw value => value.localNames

def localNamesOfStmts : List Stmt → LocalNames
  | [] => {}
  | s :: rest => s.localNames ++ localNamesOfStmts rest

end

/-! ## Occurrences -/

/-- A variable in a tree, with what the closures around it have declared before it. -/
structure Occurrence where
  name : String
  before : LocalNames
deriving DecidableEq, Repr

namespace Occurrence

/-- No parameter, loop variable or declaration in force binds the variable. -/
def IsFree (o : Occurrence) : Prop :=
  o.name ∉ o.before.inForce

/-- Its name was declared in a block or loop that is over. -/
def IsHidden (o : Occurrence) : Prop :=
  o.name ∈ o.before.ended

/-- The same occurrence in a closure inside of others. -/
def inside (outer : LocalNames) (o : Occurrence) : Occurrence :=
  { o with before := outer ++ o.before }

end Occurrence

mutual

/-- The variables of the expression from left to right, those of closures included. -/
def Expr.occurrences : Expr → LocalNames → List Occurrence
  | .literal _ _, _ => []
  | .var _ name _, before => [⟨name, before⟩]
  | .this _, _ => []
  | .classRef _ _, _ => []
  | .property _ receiver _, before => receiver.occurrences before
  | .methodCall _ receiver _ args _ _, before =>
      receiver.occurrences before ++ occurrencesOfExprs args (before ++ receiver.localNames)
  | .staticCall _ _ _ args, before => occurrencesOfExprs args before
  | .constructorCall _ _ args, before => occurrencesOfExprs args before
  | .binary _ _ _ left right, before =>
      left.occurrences before ++ right.occurrences (before ++ left.localNames)
  | .ternary _ condition yes no, before =>
      (condition.occurrences before ++ yes.occurrences (before ++ condition.localNames)) ++
        no.occurrences (before ++ (condition.localNames ++ yes.localNames))
  | .closure _ params body _, before =>
      occurrencesOfStmts body (before ++ { inForce := params.map Param.name })
  | .block _ body, before => occurrencesOfStmts body before
  | .map _ entries, before => occurrencesOfEntries entries before
  | .list _ items, before => occurrencesOfExprs items before
  | .declaration _ _ _ initializer, before => initializer.occurrences before
  | .cast _ _ operand, before => operand.occurrences before
  | .unary _ _ operand, before => operand.occurrences before

def occurrencesOfExprs : List Expr → LocalNames → List Occurrence
  | [], _ => []
  | e :: rest, before => e.occurrences before ++ occurrencesOfExprs rest (before ++ e.localNames)

def occurrencesOfEntries : List Entry → LocalNames → List Occurrence
  | [], _ => []
  | .mk key value _ :: rest, before =>
      (key.occurrences before ++ value.occurrences (before ++ key.localNames)) ++
        occurrencesOfEntries rest (before ++ (key.localNames ++ value.localNames))

def Stmt.occurrences : Stmt → LocalNames → List Occurrence
  | .expr value, before => value.occurrences before
  | .block body, before => occurrencesOfStmts body before
  | .ret none _, _ => []
  | .ret (some value) _, before => value.occurrences before
  | .ifElse condition yes none, before =>
      condition.occurrences before ++ occurrencesOfStmts yes (before ++ condition.localNames)
  | .ifElse condition yes (some no), before =>
      (condition.occurrences before ++
        occurrencesOfStmts yes (before ++ condition.localNames)) ++
        occurrencesOfStmts no (before ++ (condition.localNames ++ (localNamesOfStmts yes).close))
  | .whileLoop condition body, before =>
      condition.occurrences before ++ occurrencesOfStmts body (before ++ condition.localNames)
  | .forIn loopVar iterable body, before =>
      iterable.occurrences before ++
        occurrencesOfStmts body ((before ++ iterable.localNames) ++ { inForce := [loopVar.name] })
  | .throw value, before => value.occurrences before

def occurrencesOfStmts : List Stmt → LocalNames → List Occurrence
  | [], _ => []
  | s :: rest, before => s.occurrences before ++ occurrencesOfStmts rest (before ++ s.localNames)

end

/-- The variables in the body of a closure with the given parameters. -/
def closureOccurrences (params : List Param) (body : Block) : List Occurrence :=
  occurrencesOfStmts body { inForce := params.map Param.name }

/-! ## Walks and occurrences -/

namespace Occurrence

/-- The occurrence shows that the closures around it do not declare the name before it. -/
def Escapes (o : Occurrence) (name : String) : Prop :=
  o.name = name ∧ ¬ o.before.Has name

theorem escapes_iff {o : Occurrence} {name : String} :
    o.Escapes name ↔ o.name = name ∧ o.IsFree ∧ ¬ o.IsHidden := by
  unfold Escapes LocalNames.Has IsFree IsHidden
  rw [not_or]
  constructor
  · rintro ⟨rfl, hfree, hseen⟩
    exact ⟨rfl, hfree, hseen⟩
  · rintro ⟨rfl, hfree, hseen⟩
    exact ⟨rfl, hfree, hseen⟩

/-- What occurs in an inner closure escapes from it and, unless an outer one has declared
the name before, from that one too. -/
theorem exists_escapes_inside {occurrences : List Occurrence} {outer : LocalNames}
    {name : String} :
    (∃ o ∈ occurrences.map (inside outer), o.Escapes name) ↔
      (∃ o ∈ occurrences, o.Escapes name) ∧ ¬ outer.Has name := by
  have hinside : ∀ o : Occurrence,
      (o.inside outer).Escapes name ↔ o.Escapes name ∧ ¬ outer.Has name := by
    intro o
    simp only [Escapes, inside, LocalNames.has_append, not_or]
    rw [and_left_comm, and_comm]
  constructor
  · rintro ⟨_, hmem, hescapes⟩
    obtain ⟨o, ho, rfl⟩ := List.mem_map.mp hmem
    have hboth := (hinside o).mp hescapes
    exact ⟨⟨o, ho, hboth.1⟩, hboth.2⟩
  · rintro ⟨⟨o, ho, hescapes⟩, houter⟩
    exact ⟨o.inside outer, List.mem_map_of_mem ho, (hinside o).mpr ⟨hescapes, houter⟩⟩

end Occurrence

namespace VariableScope

/-- The walk adds the declared names of a tree and captures what occurs in it before it
is declared. -/
structure Tracks (walk : VariableScope → VariableScope) (names : LocalNames)
    (occurrences : LocalNames → List Occurrence) : Prop where
  declared : ∀ (scope : VariableScope) (name : String),
    name ∈ (walk scope).declared ↔ name ∈ scope.declared ∨ names.Has name
  captured : ∀ (scope : VariableScope) (before : LocalNames),
    (∀ name, name ∈ scope.declared ↔ before.Has name) → ∀ name,
      name ∈ (walk scope).captured ↔
        name ∈ scope.captured ∨ ∃ o ∈ occurrences before, o.Escapes name
  inside : ∀ outer before : LocalNames,
    occurrences (outer ++ before) = (occurrences before).map (Occurrence.inside outer)

theorem tracks_nothing : Tracks (fun scope => scope) {} fun _ => [] where
  declared _ _ := by simp
  captured _ _ _ _ := by simp
  inside _ _ := rfl

variable {first second walk : VariableScope → VariableScope}
  {names names' : LocalNames} {occurrences occurrences' : LocalNames → List Occurrence}

theorem Tracks.comp (hfirst : Tracks first names occurrences)
    (hsecond : Tracks second names' occurrences') :
    Tracks (fun scope => second (first scope)) (names ++ names')
      fun before => occurrences before ++ occurrences' (before ++ names) where
  declared scope name := by
    rw [hsecond.declared, hfirst.declared, LocalNames.has_append, or_assoc]
  captured scope before hbefore name := by
    have hmiddle : ∀ other, other ∈ (first scope).declared ↔ (before ++ names).Has other := by
      intro other
      rw [hfirst.declared, hbefore, LocalNames.has_append]
    rw [hsecond.captured _ _ hmiddle, hfirst.captured _ _ hbefore, or_assoc]
    simp only [List.mem_append, or_and_right, exists_or]
  inside outer before := by
    rw [List.map_append, hfirst.inside, LocalNames.append_assoc, hsecond.inside]

/-- The end of a block changes nothing for the walk. -/
theorem Tracks.close (h : Tracks walk names occurrences) :
    Tracks walk names.close occurrences where
  declared scope name := by rw [h.declared, LocalNames.has_close]
  captured := h.captured
  inside := h.inside

theorem tracks_declare (name : String) :
    Tracks (declare · name) { inForce := [name] } fun _ => [] where
  declared scope other := by
    rw [LocalNames.has_inForce, List.mem_singleton]
    exact mem_addName
  captured _ _ _ _ := by simp [declare]
  inside _ _ := rfl

theorem mem_captured_reference {scope : VariableScope} {name other : String} :
    other ∈ (scope.reference name).captured ↔
      other ∈ scope.captured ∨ (other = name ∧ other ∉ scope.declared) := by
  unfold reference
  split
  · rename_i hdeclared
    have hname : name ∈ scope.declared := by simpa using hdeclared
    constructor
    · exact .inl
    · rintro (hother | ⟨rfl, hother⟩)
      · exact hother
      · exact absurd hname hother
  · rename_i hdeclared
    have hname : name ∉ scope.declared := by simpa using hdeclared
    rw [mem_addName]
    constructor
    · rintro (hother | rfl)
      · exact .inl hother
      · exact .inr ⟨rfl, hname⟩
    · exact Or.imp_right And.left

theorem declared_reference (scope : VariableScope) (name : String) :
    (scope.reference name).declared = scope.declared := by
  unfold reference
  split
  · rfl
  · rfl

theorem tracks_reference (name : String) :
    Tracks (reference · name) {} fun before => [⟨name, before⟩] where
  declared scope other := by
    rw [declared_reference]
    simp
  captured scope before hbefore other := by
    rw [mem_captured_reference, hbefore other]
    simp only [List.mem_singleton, exists_eq_left, Occurrence.Escapes, eq_comm (a := other)]
  inside _ _ := rfl

theorem declared_referenceAll (scope : VariableScope) (names : List String) :
    (scope.referenceAll names).declared = scope.declared := by
  induction names generalizing scope with
  | nil => rfl
  | cons name rest ih => exact (ih (scope.reference name)).trans (declared_reference scope name)

theorem mem_captured_referenceAll {scope : VariableScope} {names : List String}
    {other : String} :
    other ∈ (scope.referenceAll names).captured ↔
      other ∈ scope.captured ∨ (other ∈ names ∧ other ∉ scope.declared) := by
  induction names generalizing scope with
  | nil => simp [referenceAll]
  | cons name rest ih =>
      have hrest := @ih (scope.reference name)
      rw [mem_captured_reference, declared_reference, or_assoc, ← or_and_right] at hrest
      rw [List.mem_cons]
      exact hrest

theorem mem_declared_ofParams {params : List Param} {name : String} :
    name ∈ (ofParams params).declared ↔ name ∈ params.map Param.name := by
  have hfold : ∀ (params : List Param) (scope : VariableScope),
      name ∈ (params.foldl (fun scope param => scope.declare param.name) scope).declared ↔
        name ∈ scope.declared ∨ name ∈ params.map Param.name := by
    intro params
    induction params with
    | nil => simp
    | cons param rest ih =>
        intro scope
        have hstep : name ∈ (scope.declare param.name).declared ↔
            name ∈ scope.declared ∨ name = param.name := mem_addName
        rw [List.foldl_cons, ih, hstep, List.map_cons, List.mem_cons, or_assoc]
  have hparams := hfold params {}
  rw [List.mem_nil_iff, false_or] at hparams
  exact hparams

theorem captured_ofParams (params : List Param) : (ofParams params).captured = [] := by
  have hfold : ∀ (params : List Param) (scope : VariableScope),
      (params.foldl (fun scope param => scope.declare param.name) scope).captured =
        scope.captured := by
    intro params
    induction params with
    | nil => exact fun _ => rfl
    | cons param rest ih => exact fun scope => ih (scope.declare param.name)
  exact hfold params {}

/-- What the body of a closure captures, from what is known of the walk over the body. -/
theorem Tracks.mem_captured_ofParams (h : Tracks walk names occurrences) (params : List Param)
    (name : String) :
    name ∈ (walk (ofParams params)).captured ↔
      ∃ o ∈ occurrences { inForce := params.map Param.name }, o.Escapes name := by
  have hparams : ∀ other, other ∈ (ofParams params).declared ↔
      ({ inForce := params.map Param.name } : LocalNames).Has other := by
    intro other
    rw [mem_declared_ofParams, LocalNames.has_inForce]
  rw [h.captured _ _ hparams, captured_ofParams]
  simp

/-- A closure captures from the body around it what its own body captures. -/
theorem Tracks.closure (h : Tracks walk names occurrences) (params : List Param) :
    Tracks (fun scope => scope.referenceAll (walk (ofParams params)).captured) {}
      fun before => occurrences (before ++ { inForce := params.map Param.name }) where
  declared scope name := by
    rw [declared_referenceAll]
    simp
  captured scope before hbefore name := by
    rw [mem_captured_referenceAll, h.mem_captured_ofParams, hbefore name, h.inside,
      Occurrence.exists_escapes_inside]
  inside outer before := by
    rw [LocalNames.append_assoc, h.inside]

end VariableScope

open VariableScope

mutual

theorem Expr.tracks_scan : (e : Expr) → Tracks e.scan e.localNames e.occurrences
  | .literal _ _ => tracks_nothing
  | .var _ name _ => tracks_reference name
  | .this _ => tracks_nothing
  | .classRef _ _ => tracks_nothing
  | .property _ receiver _ => receiver.tracks_scan
  | .methodCall _ receiver _ args _ _ => receiver.tracks_scan.comp (tracks_scanExprs args)
  | .staticCall _ _ _ args => tracks_scanExprs args
  | .constructorCall _ _ args => tracks_scanExprs args
  | .binary _ _ _ left right => left.tracks_scan.comp right.tracks_scan
  | .ternary _ condition yes no =>
      (condition.tracks_scan.comp yes.tracks_scan).comp no.tracks_scan
  | .closure _ params body _ => (tracks_scanStmts body).closure params
  | .block _ body => (tracks_scanStmts body).close
  | .map _ entries => tracks_scanEntries entries
  | .list _ items => tracks_scanExprs items
  | .declaration _ name _ initializer => by
      have h := initializer.tracks_scan.comp (tracks_declare name)
      simp only [List.append_nil] at h
      exact h
  | .cast _ _ operand => operand.tracks_scan
  | .unary _ _ operand => operand.tracks_scan

theorem tracks_scanExprs : (es : List Expr) →
    Tracks (scanExprs es) (localNamesOfExprs es) (occurrencesOfExprs es)
  | [] => tracks_nothing
  | e :: rest => e.tracks_scan.comp (tracks_scanExprs rest)

theorem tracks_scanEntries : (entries : List Entry) →
    Tracks (scanEntries entries) (localNamesOfEntries entries) (occurrencesOfEntries entries)
  | [] => tracks_nothing
  | .mk key value _ :: rest =>
      (key.tracks_scan.comp value.tracks_scan).comp (tracks_scanEntries rest)

theorem Stmt.tracks_scan : (s : Stmt) → Tracks s.scan s.localNames s.occurrences
  | .expr value => value.tracks_scan
  | .block body => (tracks_scanStmts body).close
  | .ret none _ => tracks_nothing
  | .ret (some value) _ => value.tracks_scan
  | .ifElse condition yes none => condition.tracks_scan.comp (tracks_scanStmts yes).close
  | .ifElse condition yes (some no) =>
      (condition.tracks_scan.comp (tracks_scanStmts yes).close).comp (tracks_scanStmts no).close
  | .whileLoop condition body => condition.tracks_scan.comp (tracks_scanStmts body).close
  | .forIn loopVar iterable body =>
      iterable.tracks_scan.comp
        ((tracks_declare loopVar.name).comp (tracks_scanStmts body)).close
  | .throw value => value.tracks_scan

theorem tracks_scanStmts : (body : List Stmt) →
    Tracks (scanStmts body) (localNamesOfStmts body) (occurrencesOfStmts body)
  | [] => tracks_nothing
  | s :: rest => s.tracks_scan.comp (tracks_scanStmts rest)

end

/-! ## Captured names -/

/-- A closure captures exactly the names that occur in it, or in a closure inside of it,
where no declaration in force binds them and none that has ended hides them. -/
theorem VariableScope.mem_captured_ofClosure_iff (params : List Param) (body : Block)
    (name : String) :
    name ∈ (VariableScope.ofClosure params body).captured ↔
      ∃ o ∈ closureOccurrences params body, o.name = name ∧ o.IsFree ∧ ¬ o.IsHidden := by
  have hwalk := (tracks_scanStmts body).mem_captured_ofParams params name
  simp only [Occurrence.escapes_iff] at hwalk
  exact hwalk

/-- After the block that declares it, the variable is free and not captured. -/
example :
    let body : Block :=
      [.block [.expr (.declaration {} "x" none (.null {}))], .expr (.var {} "x" none)]
    closureOccurrences [] body = [⟨"x", { ended := ["x"] }⟩] ∧
      (VariableScope.ofClosure [] body).captured = [] := by
  decide

end StaticDispatch
