import StaticDispatch.Tree.Basic

/-!
# Sameness of trees

Two trees are the same when they agree in every part: shapes, names, positions,
facts and the scopes of closures.  Decimal literals are compared as numbers, so
that the two zeros are the same and a tree with a NaN is not the same as itself.
-/

namespace StaticDispatch

def Literal.same : Literal → Literal → Bool
  | .null, .null => true
  | .boolean a, .boolean b => a == b
  | .integer a, .integer b => a == b
  | .decimal a, .decimal b => a.equals b
  | .string a, .string b => a == b
  | _, _ => false

mutual

def Expr.same : Expr → Expr → Bool
  | .literal i a, .literal j b => i == j && a.same b
  | .var i n t, .var j m u => i == j && n == m && t == u
  | .this i, .this j => i == j
  | .classRef i t, .classRef j u => i == j && t == u
  | .property i r n, .property j q m => i == j && n == m && r.same q
  | .methodCall i r n xs s p, .methodCall j q m ys t o =>
    i == j && n == m && s == t && p == o && r.same q && sameExprs xs ys
  | .staticCall i t n xs, .staticCall j u m ys => i == j && t == u && n == m && sameExprs xs ys
  | .constructorCall i t xs, .constructorCall j u ys => i == j && t == u && sameExprs xs ys
  | .binary i o p l r, .binary j o' p' l' r' =>
    i == j && o == o' && p == p' && l.same l' && r.same r'
  | .ternary i c y n, .ternary j c' y' n' => i == j && c.same c' && y.same y' && n.same n'
  | .closure i ps b s, .closure j qs c t => i == j && ps == qs && s == t && sameStmts b c
  | .block i b, .block j c => i == j && sameStmts b c
  | .map i xs, .map j ys => i == j && sameEntries xs ys
  | .list i xs, .list j ys => i == j && sameExprs xs ys
  | .declaration i n t e, .declaration j m u f => i == j && n == m && t == u && e.same f
  | .cast i t e, .cast j u f => i == j && t == u && e.same f
  | .unary i o e, .unary j o' f => i == j && o == o' && e.same f
  | _, _ => false

def sameExprs : List Expr → List Expr → Bool
  | [], [] => true
  | x :: xs, y :: ys => x.same y && sameExprs xs ys
  | _, _ => false

def sameEntries : List Entry → List Entry → Bool
  | [], [] => true
  | .mk k v s :: xs, .mk k' v' s' :: ys => s == s' && k.same k' && v.same v' && sameEntries xs ys
  | _, _ => false

def Stmt.same : Stmt → Stmt → Bool
  | .expr e, .expr f => e.same f
  | .block b, .block c => sameStmts b c
  | .ret none s, .ret none t => s == t
  | .ret (some e) s, .ret (some f) t => s == t && e.same f
  | .ifElse c y none, .ifElse c' y' none => c.same c' && sameStmts y y'
  | .ifElse c y (some n), .ifElse c' y' (some n') =>
    c.same c' && sameStmts y y' && sameStmts n n'
  | .whileLoop c b, .whileLoop c' b' => c.same c' && sameStmts b b'
  | .forIn v e b, .forIn v' e' b' => v == v' && e.same e' && sameStmts b b'
  | .throw e, .throw f => e.same f
  | _, _ => false

def sameStmts : List Stmt → List Stmt → Bool
  | [], [] => true
  | x :: xs, y :: ys => x.same y && sameStmts xs ys
  | _, _ => false

end

/-! ## Units -/

def sameLists {α : Type} (same : α → α → Bool) : List α → List α → Bool
  | [], [] => true
  | x :: xs, y :: ys => same x y && sameLists same xs ys
  | _, _ => false

def FieldUnit.same (a b : FieldUnit) : Bool :=
  a.name == b.name && a.type == b.type && a.span == b.span &&
    match a.initializer, b.initializer with
    | none, none => true
    | some e, some f => e.same f
    | _, _ => false

def MethodUnit.same (a b : MethodUnit) : Bool :=
  a.id == b.id && a.name == b.name && a.declaringType == b.declaringType &&
    a.params == b.params && a.span == b.span && sameStmts a.body b.body

mutual

def ClassUnit.same : ClassUnit → ClassUnit → Bool
  | .mk t fs cs ms is s, .mk t' fs' cs' ms' is' s' =>
    t == t' && s == s' && sameLists FieldUnit.same fs fs' && sameLists MethodUnit.same cs cs' &&
      sameLists MethodUnit.same ms ms' && sameClasses is is'

def sameClasses : List ClassUnit → List ClassUnit → Bool
  | [], [] => true
  | x :: xs, y :: ys => x.same y && sameClasses xs ys
  | _, _ => false

end

def CompilationUnit.same : CompilationUnit → CompilationUnit → Bool
  | .classUnit a, .classUnit b => a.same b
  | .methodUnit a, .methodUnit b => a.same b
  | .fieldUnit a, .fieldUnit b => a.same b
  | _, _ => false

end StaticDispatch
