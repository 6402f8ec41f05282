import StaticDispatch.Proofs.Eval.ScopeAside
import StaticDispatch.Proofs.Lowering.Behaviour
import StaticDispatch.Proofs.Lowering.Names

/-!
# Compound assignments keep their meaning

A compound assignment that was resolved to a method reads its target, calls the
method and writes the target.  Where a part of the target has side effects, it
is bound to a temporary in a block around the assignment, so that the parts are
evaluated one scope further in, and a part that stays in place is evaluated
after one that was bound.
-/

namespace StaticDispatch

open EvalM

/-! ## Natives -/

/-- Natives neither look into closures nor change them: the parts of a closure are the
evaluator's own. -/
def Library.SeesNoClosures (lib : Library) : Prop :=
  ∀ (key : String) (native : Native), lib.natives.get? key = some native →
    ∀ (receiver : Value) (args : List Value) (heap : Heap) (closures : Array ClosureCode),
      native.call receiver args { heap with closures } =
        ((native.call receiver args heap).1,
          { (native.call receiver args heap).2 with closures })

/-- Everything where it was. -/
def Relocation.identity : Relocation :=
  ⟨id, id, Function.injective_id, Function.injective_id⟩

namespace Relocation

theorem value_identity (v : Value) : identity.value v = v := by
  cases v <;> rfl

theorem map_identity (m : OrderedMap Value) : m.map identity.value = m :=
  OrderedMap.map_eq_self fun v _ => value_identity v

theorem maps_identity_iff {s t : Heap} :
    identity.Maps s t ↔ ∃ closures, t = { s with closures } := by
  have hvalue : identity.value = id := funext value_identity
  have hvars : (fun m : OrderedMap Value => m.map identity.value) = id := funext map_identity
  have hcontent : identity.content = id := by
    funext object
    simp only [content, map_identity, id]
  constructor
  · intro h
    have hsequences : t.sequences = s.sequences := by
      rw [h.sequences, hvalue]
      simp
    have hmaps : t.maps = s.maps := by
      rw [h.maps, hvars, Array.map_id]
    have hobjects : t.objects = s.objects := by
      apply Array.ext_getElem?
      intro a
      have ha := h.objects a
      rwa [hcontent, Option.map_id] at ha
    exact ⟨t.closures, by rw [← hsequences, ← hmaps, ← hobjects]⟩
  · rintro ⟨closures, rfl⟩
    refine ⟨?_, ?_, ?_, fun n => rfl⟩
    · simp [hvalue]
    · rw [hvars, Array.map_id]
    · intro a
      rw [hcontent, Option.map_id]
      rfl

end Relocation

theorem Library.SeesNoClosures.relocates {lib : Library} (h : lib.SeesNoClosures) :
    lib.Relocates .identity := by
  intro key native hnative receiver args s t hmaps
  have hcall := h key native hnative receiver args s
  have hargs : args.map Relocation.identity.value = args := by
    rw [funext Relocation.value_identity, List.map_id']
  have hresult : ∀ result : Except String Value,
      result.map Relocation.identity.value = result := by
    intro result
    rw [funext Relocation.value_identity]
    exact congrFun Except.map_id result
  obtain ⟨closures, rfl⟩ := Relocation.maps_identity_iff.mp hmaps
  rw [Relocation.value_identity, hargs, hresult, hcall]
  refine ⟨rfl, Relocation.maps_identity_iff.mpr ⟨closures, rfl⟩, ?_, rfl, ?_⟩
  · exact congrArg (fun answer => answer.2.closures) (hcall s.closures)
  · exact fun a ha => absurd rfl (ha a)

/-! ## States -/

/-- Two ways on from a start come to the same: the same log, the same contents of all
containers, the same code of all closures, and the same variables, visible now or in any
scope that was there at the start. -/
structure State.SameFrom (start s t : State) : Prop where
  sequences : t.heap.sequences = s.heap.sequences
  maps : t.heap.maps = s.heap.maps
  objects : t.heap.objects = s.heap.objects
  closures : t.heap.closures.map (fun code => (code.params, code.body)) =
    s.heap.closures.map fun code => (code.params, code.body)
  env : t.env = s.env
  vars : ∀ name, t.lookup? name = s.lookup? name
  scopes : ∀ id < start.scopes.size, t.scopes[id]? = s.scopes[id]?
  this : t.this = s.this
  log : t.log = s.log

theorem State.SameFrom.refl (start s : State) : State.SameFrom start s s :=
  ⟨rfl, rfl, rfl, rfl, rfl, fun _ => rfl, fun _ _ => rfl, rfl, rfl⟩

/-! ## The block -/

/-- The second evaluation is in a block, which binds names with this stem only. -/
def Detour.block (stem : String) (state : State) : Detour :=
  .beside .identity state (IsSynthetic stem) (fun _ => none) state.log

section Block

variable {stem : String} {state : State}

/-- The state in which the statements of a block begin. -/
def State.enterBlock (state : State) : State :=
  { state with scopes := state.scopes.push {}, env := state.scopes.size :: state.env }

theorem State.WellScoped.mirrors_enterBlock (h : state.WellScoped) :
    state.Mirrors (.block stem state) state.enterBlock :=
  h.mirrors_beside (Relocation.maps_identity_iff.mpr ⟨_, rfl⟩) (fun _ => rfl) (fun _ => rfl)
    (fun a ha => absurd rfl (ha a)) (fun vars _ => Relocation.map_identity vars)
    (Relocation.value_identity _) (fun _ _ => rfl)

theorem State.WellScoped.holds_enterBlock (h : state.WellScoped) :
    (View.beside state (IsSynthetic stem)).Holds (.block stem state) state state.enterBlock :=
  h.holds_beside (.block stem state) rfl rfl rfl rfl

theorem State.WellScoped.leaveBlock (h : state.WellScoped) {s t : State}
    (hmirrors : s.Mirrors (.block stem state) t) (henv : s.env = state.env) :
    state.SameFrom s { t with env := state.env } := by
  obtain ⟨closures, hheap⟩ := Relocation.maps_identity_iff.mp hmirrors.heap
  have hidentity : (fun vars : OrderedMap Value => vars.map Relocation.identity.value) = id :=
    funext Relocation.map_identity
  constructor
  · rw [hheap]
  · rw [hheap]
  · rw [hheap]
  · apply Array.ext_getElem?
    intro a
    simp only [Array.getElem?_map]
    exact hmirrors.code_eq a
  · exact henv.symm
  · intro name
    have hlookup := h.lookup?_eq rfl hmirrors name
    change Scopes.lookup? t.scopes name state.env = Scopes.lookup? s.scopes name s.env
    rw [hlookup, henv]
    cases Scopes.lookup? s.scopes name state.env with
    | none => rfl
    | some value => exact congrArg some (Relocation.value_identity value)
  · intro id hid
    have hscope := State.WellScoped.scopes_eq rfl hmirrors hid
    change t.scopes[id]? = (s.scopes[id]?).map (·.map Relocation.identity.value) at hscope
    rwa [hidentity, Option.map_id] at hscope
  · exact hmirrors.this.trans (Relocation.value_identity _)
  · obtain ⟨added, hleft, hright⟩ := hmirrors.log
    exact hright.trans hleft.symm

theorem Expr.fits_block {e : Expr} (hnames : ∀ name ∈ e.names, ¬ IsSynthetic stem name)
    (hwrites : ∀ write ∈ e.writes, write.KeepsNames state) :
    e.Fits (.beside state (IsSynthetic stem)) :=
  Expr.fits_beside (fun name hname => hnames name (e.mem_names_of_mem_free hname)) hwrites

end Block

/-! ## The assignment -/

section Assignment

variable {lib : Library} {loops : Nat} {runBody : Block → EvalM Flow}

/-- The assignment of the method's value to the target. -/
def methodAssignment (span opSpan : Span) (type : Option TypeId) (target : OperatorTarget)
    (place right : Expr) : Expr :=
  .binary (.typed place.span type) .assign opSpan place
    (operatorCall span type target place right)

theorem eval_methodAssignment (span opSpan : Span) (type : Option TypeId)
    (target : OperatorTarget) (op : Arithmetic) {place : Expr} (h : place.isSimpleTarget = true)
    (right : Expr) :
    (methodAssignment span opSpan type target place right).eval lib loops runBody =
      place.evalPlace lib loops runBody >>=
        completeCompound lib loops runBody (some target) op right := by
  simp only [methodAssignment, Expr.eval, eval_operatorCall, bind_assoc]
  rw [evalPlace_eval lib loops runBody h]
  rfl

theorem evalStmts_declaration (last : Option Value) (info : Info) (name : String)
    (type : Option TypeId) (e : Expr) (rest : Block) :
    evalStmts lib loops runBody last (.expr (.declaration info name type e) :: rest) = (do
      let value ← e.eval lib loops runBody
      modify fun state => state.define name value
      evalStmts lib loops runBody (some value) rest) := by
  simp only [evalStmts, Stmt.eval, Expr.eval, bind_assoc, pure_bind]

theorem isSimpleTarget_index {info : Info} (hinfo : info.facts.operatorTarget = none)
    {receiver index : Expr} (hreceiver : receiver.isSideEffectFree = true)
    (hindex : index.isSideEffectFree = true) (opSpan : Span) :
    (Expr.binary info .index opSpan receiver index).isSimpleTarget = true := by
  simp [Expr.isSimpleTarget, hinfo, hreceiver, hindex]

theorem evalStmts_methodAssignment (last : Option Value) (span opSpan : Span)
    (type : Option TypeId) (target : OperatorTarget) (op : Arithmetic) {place : Expr}
    (h : place.isSimpleTarget = true) (right : Expr) :
    evalStmts lib loops runBody last
        [.expr (methodAssignment span opSpan type target place right)] = (do
      let place ← place.evalPlace lib loops runBody
      let value ← completeCompound lib loops runBody (some target) op right place
      return .normal (some value)) := by
  simp only [evalStmts, Stmt.eval, eval_methodAssignment span opSpan type target op h,
    bind_assoc, pure_bind]

end Assignment

section Hoisting

variable {δ : Detour} {view : View} {lib : Library} {budget : Nat} {right : Expr}

theorem mirrors_lastStatement (hlib : lib.Relocates δ.toRelocation) (hright : right.Fits view)
    (target : OperatorTarget) (op : Arithmetic) {place : Place} (hplace : view.Allows place) :
    Mirrors δ view (fun value => Flow.normal (some (δ.value value)))
      (completeCompound lib budget (runBody lib budget) (some target) op right place)
      (completeCompound lib budget (runBody lib budget) (some target) op right (δ.place place) >>=
        fun value => pure (.normal (some value))) := by
  have hcomplete := mirrors_completeCompound budget (hlib.suits budget) (hright.mirrors hlib)
    (some target) op hplace
  exact hcomplete.pure_right (g := fun value => Flow.normal (some value))

variable (hlib : lib.Relocates δ.toRelocation) (hright : right.Fits view) (haside : view.aside)
  {info dinfo dinfo' vinfo vinfo' : Info} {span opSpan opSpan' : Span}
  {dtype dtype' type : Option TypeId} (target : OperatorTarget) (op : Arithmetic)
  {name : String} (hname : δ.hidden name) (hfresh : δ.locals name = none)
include hlib hright haside hname hfresh

theorem mirrors_hoistedProperty {receiver : Expr} (hreceiver : receiver.Fits view)
    (property : String) :
    Mirrors δ view (fun value => Flow.normal (some (δ.value value)))
      ((Expr.property info receiver property).evalPlace lib budget (runBody lib budget) >>=
        completeCompound lib budget (runBody lib budget) (some target) op right)
      (evalStmts lib budget (runBody lib budget) none
        [.expr (.declaration dinfo name dtype receiver),
          .expr (methodAssignment span opSpan type target
            (.property info (.var vinfo name dtype) property) right)]) := by
  simp only [evalStmts_declaration, Expr.evalPlace, bind_assoc, pure_bind]
  refine (hreceiver.mirrors hlib).hoist haside hname hfresh fun v => ?_
  rw [evalStmts_methodAssignment _ _ _ _ _ op rfl]
  simp only [Expr.evalPlace, Expr.eval, bind_assoc, pure_bind]
  apply Mirrors.readLocal haside (δ.locals_bind_self name _)
  have hplace : view.Allows (.property v property) := trivial
  exact mirrors_lastStatement (δ := δ.bind name (δ.value v)) hlib hright target op hplace

theorem mirrors_hoistedReceiver (hinfo : info.facts.operatorTarget = none)
    {receiver index : Expr} (hreceiver : receiver.Fits view) (hindex : index.Fits view)
    (hplain : index.isSideEffectFree = true) :
    Mirrors δ view (fun value => Flow.normal (some (δ.value value)))
      ((Expr.binary info .index opSpan' receiver index).evalPlace lib budget
          (runBody lib budget) >>=
        completeCompound lib budget (runBody lib budget) (some target) op right)
      (evalStmts lib budget (runBody lib budget) none
        [.expr (.declaration dinfo name dtype receiver),
          .expr (methodAssignment span opSpan type target
            (.binary info .index opSpan' (.var vinfo name dtype) index) right)]) := by
  simp only [evalStmts_declaration, Expr.evalPlace, bind_assoc, pure_bind]
  refine (hreceiver.mirrors hlib).hoist haside hname hfresh fun v => ?_
  rw [evalStmts_methodAssignment _ _ _ _ _ op (isSimpleTarget_index hinfo rfl hplain opSpan')]
  simp only [Expr.evalPlace, Expr.eval, bind_assoc, pure_bind]
  apply Mirrors.readLocal haside (δ.locals_bind_self name _)
  refine (hindex.mirrors (δ := δ.bind name (δ.value v)) hlib).bind fun i => ?_
  have hplace : view.Allows (.element v i) := trivial
  exact mirrors_lastStatement (δ := δ.bind name (δ.value v)) hlib hright target op hplace

theorem mirrors_hoistedElement (hinfo : info.facts.operatorTarget = none)
    {receiver index : Expr} (hreceiver : receiver.Fits view) (hindex : index.Fits view)
    {name' : String} (hname' : δ.hidden name') (hfresh' : δ.locals name' = none)
    (hne : name' ≠ name) :
    Mirrors δ view (fun value => Flow.normal (some (δ.value value)))
      ((Expr.binary info .index opSpan' receiver index).evalPlace lib budget
          (runBody lib budget) >>=
        completeCompound lib budget (runBody lib budget) (some target) op right)
      (evalStmts lib budget (runBody lib budget) none
        [.expr (.declaration dinfo name dtype receiver),
          .expr (.declaration dinfo' name' dtype' index),
          .expr (methodAssignment span opSpan type target
            (.binary info .index opSpan' (.var vinfo name dtype) (.var vinfo' name' dtype'))
            right)]) := by
  simp only [evalStmts_declaration, Expr.evalPlace, bind_assoc, pure_bind]
  refine (hreceiver.mirrors hlib).hoist haside hname hfresh fun v => ?_
  have hfresh'' : (δ.bind name (δ.value v)).locals name' = none :=
    (δ.locals_bind_of_ne _ hne).trans hfresh'
  refine (hindex.mirrors (δ := δ.bind name (δ.value v)) hlib).hoist haside hname' hfresh''
    fun i => ?_
  rw [evalStmts_methodAssignment _ _ _ _ _ op (isSimpleTarget_index hinfo rfl rfl opSpan')]
  simp only [Expr.evalPlace, Expr.eval, bind_assoc, pure_bind]
  apply Mirrors.readLocal haside
    ((Detour.locals_bind_of_ne _ _ hne.symm).trans (δ.locals_bind_self name _))
  apply Mirrors.readLocal haside (Detour.locals_bind_self _ name' _)
  have hplace : view.Allows (.element v i) := trivial
  exact mirrors_lastStatement
    (δ := (δ.bind name (δ.value v)).bind name' (δ.value i)) hlib hright target op hplace

/-- The index in a temporary, with a receiver that can be read twice, and that the index
leaves as it is. -/
theorem answers_hoistedIndex (hinfo : info.facts.operatorTarget = none)
    {receiver index : Expr} (hreceiver : receiver.Fits view) (hindex : index.Fits view)
    (hplain : receiver.isSideEffectFree = true) {s t : State} (h : s.Mirrors δ t)
    (hview : view.Holds δ s t) {v : Value}
    (hfirst : (receiver.eval lib budget (runBody lib budget)).run s = (.ok v, s))
    (hstands : ∀ i s', (index.eval lib budget (runBody lib budget)).run s = (.ok i, s') →
      s'.this = s.this →
      (receiver.eval lib budget (runBody lib budget)).run s' = (.ok v, s')) :
    Answers δ (fun value => Flow.normal (some (δ.value value))) s t
      (((Expr.binary info .index opSpan' receiver index).evalPlace lib budget
          (runBody lib budget) >>=
        completeCompound lib budget (runBody lib budget) (some target) op right).run s)
      ((evalStmts lib budget (runBody lib budget) none
        [.expr (.declaration dinfo name dtype index),
          .expr (methodAssignment span opSpan type target
            (.binary info .index opSpan' receiver (.var vinfo name dtype)) right)]).run t) := by
  simp only [evalStmts_declaration, Expr.evalPlace, bind_assoc, pure_bind]
  rw [run_bind_of_ok hfirst]
  -- The receiver comes before the index in the first evaluation and after it in the second, so
  -- that the two states are followed here and not only the steps.
  refine Answers.hoist (hindex.mirrors hlib s t h hview) hview haside hname hfresh
    fun i s' t' hi hthis h' hview' => ?_
  have hagain : Answers (δ.bind name (δ.value i)) δ.value s' t'
      ((receiver.eval lib budget (runBody lib budget)).run s')
      ((receiver.eval lib budget (runBody lib budget)).run t') :=
    hreceiver.mirrors (δ := δ.bind name (δ.value i)) hlib s' t' h' hview'
  rw [hstands i s' hi hthis] at hagain
  have hrun : (receiver.eval lib budget (runBody lib budget)).run t' =
      (.ok (δ.value v), t') :=
    Prod.ext hagain.result (Expr.readsOnly_eval lib budget _ hplain t')
  rw [evalStmts_methodAssignment _ _ _ _ _ op (isSimpleTarget_index hinfo hplain rfl opSpan')]
  simp only [Expr.evalPlace, Expr.eval, bind_assoc, pure_bind]
  rw [run_bind_of_ok hrun]
  have hplace : view.Allows (.element v i) := trivial
  exact Mirrors.readLocal haside (δ.locals_bind_self name _)
    (mirrors_lastStatement (δ := δ.bind name (δ.value i)) hlib hright target op hplace)
    s' t' h' hview'

end Hoisting

/-! ## The rule -/

/-- An assignment target: a variable, a property, or an index that was resolved to no method. -/
def Expr.isCompoundTarget : Expr → Bool
  | .var _ _ _ => true
  | .property _ _ _ => true
  | .binary info .index _ _ _ => info.facts.operatorTarget.isNone
  | _ => false

/-- A variable that stays in place as the receiver of an index, while the index is bound to a
temporary, is bound and keeps its value. -/
def Expr.ReceiverStands (lib : Library) (budget : Nat) (state : State) : Expr → Prop
  | .binary _ .index _ (.var _ name _) index =>
      index.isSideEffectFree = false →
        ∃ receiver, state.lookup? name = some receiver ∧
          ∀ value after, (evaluate lib budget index).run state = (.ok value, after) →
            after.lookup? name = some receiver
  | _ => True

/-- The operands of a compound assignment come to the same when parts of its target are bound
to temporaries in a block around it. -/
structure StandsInBlock (lib : Library) (budget : Nat) (state : State) (left right : Expr) :
    Prop where
  names : ∀ write ∈ left.writes ++ right.writes, write.KeepsNames state
  receiver : left.ReceiverStands lib budget state

section Rule

variable {settings : Settings} {lib : Library} {budget : Nat} {state : State} (cls : TypeId)

theorem stableOperand_of_effects {operand : Expr} (h : operand.isSideEffectFree = false) :
    stableOperand settings cls operand = (do
      let (declaration, reference) ← bindTemporary settings cls operand
      return ([.expr declaration], reference)) := by
  unfold stableOperand
  rw [if_neg (by simp [h])]

theorem run_inChildScope {α : Type} (x : EvalM α) :
    (inChildScope {} x).run state =
      ((x.run state.enterBlock).1, { (x.run state.enterBlock).2 with env := state.env }) :=
  rfl

theorem State.WellScoped.run_block {stem : String} (h : state.WellScoped)
    {x : EvalM Value} {body : Block} (info : Info)
    (hanswers : Answers (.block stem state)
      (fun value => Flow.normal (some ((Detour.block stem state).value value)))
      state state.enterBlock (x.run state)
      ((evalStmts lib budget (runBody lib budget) none body).run state.enterBlock)) :
    ((evaluate lib budget (.block info body)).run state).1 = (x.run state).1 ∧
      state.SameFrom (x.run state).2 ((evaluate lib budget (.block info body)).run state).2 := by
  have hleave := h.leaveBlock hanswers.mirrors hanswers.env
  have hresult := hanswers.result
  simp only [evaluate, Expr.eval]
  rw [run_bind, run_inChildScope, hresult]
  rcases hx : x.run state with ⟨_ | value, after⟩
  · rw [hx] at hleave
    exact ⟨rfl, hleave⟩
  · rw [hx] at hleave
    exact ⟨congrArg Except.ok (Relocation.value_identity value), hleave⟩

theorem Expr.ReceiverStands.eval_eq {info : Info} {opSpan : Span} {receiver index : Expr}
    (h : (Expr.binary info .index opSpan receiver index).ReceiverStands lib budget state)
    (hreceiver : receiver.isSideEffectFree = true) (hindex : index.isSideEffectFree = false) :
    ∃ v, (evaluate lib budget receiver).run state = (.ok v, state) ∧
      ∀ i after, (evaluate lib budget index).run state = (.ok i, after) →
        after.this = state.this → (evaluate lib budget receiver).run after = (.ok v, after) := by
  cases receiver with
  | literal info literal => exact ⟨literal.eval, rfl, fun _ _ _ _ => rfl⟩
  | var info name type =>
      obtain ⟨v, hbound, hstands⟩ := h hindex
      refine ⟨v, ?_, ?_⟩
      · change (readVariable name).run state = _
        rw [run_readVariable, hbound]
      · intro i after hrun _
        change (readVariable name).run after = _
        rw [run_readVariable, hstands i after hrun]
  | this info =>
      refine ⟨state.this, rfl, ?_⟩
      intro i after _ hthis
      rw [← hthis]
      rfl
  | classRef info type => exact ⟨.classRef type, rfl, fun _ _ _ _ => rfl⟩
  | _ => cases hreceiver

/-- The assignment is lowered to a block, and the block answers as the evaluation of the target
followed by the rest of the assignment. -/
def LowersToBlock (settings : Settings) (cls : TypeId) (lib : Library) (budget : Nat)
    (state : State) (session : Session) (span opSpan : Span) (type : Option TypeId)
    (target : OperatorTarget) (op : Arithmetic) (left right : Expr) : Prop :=
  ∃ body,
    ((lowerOperatorAssignment settings cls span opSpan type target left right).run session).1 =
        .block (.typed span type) body ∧
      Answers (.block settings.config.temporaryStem state)
        (fun value => Flow.normal (some (Relocation.identity.value value)))
        state state.enterBlock
        ((left.evalPlace lib budget (runBody lib budget) >>=
          completeCompound lib budget (runBody lib budget) (some target) op right).run state)
        ((evalStmts lib budget (runBody lib budget) none body).run state.enterBlock)

section Blocks

variable (session : Session) (hlib : lib.SeesNoClosures) (hstate : state.WellScoped)
  (span opSpan : Span) (type : Option TypeId) (target : OperatorTarget) (op : Arithmetic)
  {right : Expr}
  (hright : right.Fits (.beside state (IsSynthetic settings.config.temporaryStem)))
include hlib hstate hright

theorem lowersToBlock_property (info : Info) {receiver : Expr}
    (hreceiver : receiver.Fits (.beside state (IsSynthetic settings.config.temporaryStem)))
    (heffects : receiver.isSideEffectFree = false) (property : String) :
    LowersToBlock settings cls lib budget state session span opSpan type target op
      (.property info receiver property) right := by
  have hmirrors : state.Mirrors (.block settings.config.temporaryStem state) state.enterBlock :=
    hstate.mirrors_enterBlock
  have hfirst : (Detour.block settings.config.temporaryStem state).hidden
      (syntheticName settings.config.temporaryStem session.nextName) := ⟨_, rfl⟩
  unfold LowersToBlock
  simp only [lowerOperatorAssignment, stableTarget, stableOperand_of_effects cls heffects]
  refine ⟨_, rfl, ?_⟩
  exact mirrors_hoistedProperty (δ := .block _ state) hlib.relocates hright trivial target op
    hfirst rfl hreceiver property _ _ hmirrors hstate.holds_enterBlock

theorem lowersToBlock_index {info : Info} (hinfo : info.facts.operatorTarget = none)
    (span' : Span) {receiver index : Expr}
    (hreceiver : receiver.Fits (.beside state (IsSynthetic settings.config.temporaryStem)))
    (hindex : index.Fits (.beside state (IsSynthetic settings.config.temporaryStem)))
    (heffects : (Expr.binary info .index span' receiver index).isSimpleTarget = false)
    (hstands : (Expr.binary info .index span' receiver index).ReceiverStands lib budget state) :
    LowersToBlock settings cls lib budget state session span opSpan type target op
      (.binary info .index span' receiver index) right := by
  have hmirrors : state.Mirrors (.block settings.config.temporaryStem state) state.enterBlock :=
    hstate.mirrors_enterBlock
  have hview : (View.beside state (IsSynthetic settings.config.temporaryStem)).Holds
      (.block settings.config.temporaryStem state) state state.enterBlock :=
    hstate.holds_enterBlock
  have hfirst : (Detour.block settings.config.temporaryStem state).hidden
      (syntheticName settings.config.temporaryStem session.nextName) := ⟨_, rfl⟩
  unfold LowersToBlock
  cases hfree : receiver.isSideEffectFree with
  | true =>
      have heffects : index.isSideEffectFree = false := by
        simpa [Expr.isSimpleTarget, hinfo, hfree] using heffects
      simp only [lowerOperatorAssignment, stableTarget,
        stableOperand_of_isSideEffectFree settings cls hfree,
        stableOperand_of_effects cls heffects, pure_bind]
      obtain ⟨v, hv, hagain⟩ := hstands.eval_eq hfree heffects
      refine ⟨_, rfl, ?_⟩
      exact answers_hoistedIndex (δ := .block _ state) hlib.relocates hright trivial target op
        hfirst rfl hinfo hreceiver hindex hfree hmirrors hview hv hagain
  | false =>
      cases hplain : index.isSideEffectFree with
      | true =>
          simp only [lowerOperatorAssignment, stableTarget, stableOperand_of_effects cls hfree,
            stableOperand_of_isSideEffectFree settings cls hplain]
          refine ⟨_, rfl, ?_⟩
          exact mirrors_hoistedReceiver (δ := .block _ state) hlib.relocates hright trivial
            target op hfirst rfl hinfo hreceiver hindex hplain _ _ hmirrors hview
      | false =>
          simp only [lowerOperatorAssignment, stableTarget, stableOperand_of_effects cls hfree,
            stableOperand_of_effects cls hplain]
          refine ⟨_, rfl, ?_⟩
          have hne : syntheticName settings.config.temporaryStem (session.nextName + 1) ≠
              syntheticName settings.config.temporaryStem session.nextName := by
            intro heq
            exact absurd (syntheticName_number_inj heq) (Nat.succ_ne_self _)
          exact mirrors_hoistedElement (δ := .block _ state) hlib.relocates hright trivial
            target op hfirst rfl hinfo hreceiver hindex ⟨_, rfl⟩ rfl hne _ _ hmirrors hview

end Blocks

theorem lowersToBlock (session : Session) (hlib : lib.SeesNoClosures)
    (hstate : state.WellScoped) (span opSpan : Span) (type : Option TypeId)
    (target : OperatorTarget) (op : Arithmetic) {left right : Expr}
    (htarget : left.isCompoundTarget = true) (heffects : left.isSimpleTarget = false)
    (hnames : ∀ name ∈ left.names ++ right.names,
      ¬ IsSynthetic settings.config.temporaryStem name)
    (hstands : StandsInBlock lib budget state left right) :
    LowersToBlock settings cls lib budget state session span opSpan type target op left right := by
  have hwrites := hstands.names
  simp only [List.forall_mem_append] at hnames hwrites
  have hright := Expr.fits_block hnames.2 hwrites.2
  cases left with
  | property info receiver name =>
      have hreceiver := Expr.fits_block (e := receiver) hnames.1 hwrites.1
      exact lowersToBlock_property cls session hlib hstate span opSpan type target op hright info
        hreceiver heffects name
  | binary info operator span' receiver index =>
      cases operator with
      | index =>
          have hinfo : info.facts.operatorTarget = none := by
            simpa [Expr.isCompoundTarget] using htarget
          simp only [Expr.names, Expr.writes, ScopeWrite.ofTarget, List.nil_append,
            List.forall_mem_append] at hnames hwrites
          have hreceiver := Expr.fits_block hnames.1.1 hwrites.1.1
          have hindex := Expr.fits_block hnames.1.2 hwrites.1.2
          exact lowersToBlock_index cls session hlib hstate span opSpan type target op hright hinfo
            span' hreceiver hindex heffects hstands.receiver
      | _ => cases htarget
  | var info name type => cases heffects
  | _ => cases htarget

/-- What the rule makes of a compound assignment gives the value or the error of the assignment
itself, and leaves the same log, the same containers and the same variables.  Where a part of the
target is bound to a temporary, this takes operands that declare no variable and assign none that
is not bound, and an index that leaves the receiver alone that stays in place. -/
theorem evaluate_lowerBinary_compound (session : Session) (hlib : lib.SeesNoClosures)
    (hstate : state.WellScoped) (info : Info) (op : Arithmetic) (opSpan : Span) {left right : Expr}
    (htarget : left.isCompoundTarget = true)
    (hnames : ∀ name ∈ left.names ++ right.names,
      ¬ IsSynthetic settings.config.temporaryStem name)
    (hstands : left.isSimpleTarget = false → StandsInBlock lib budget state left right) :
    let original := Expr.binary info (.compound op) opSpan left right
    let lowered := ((lowerBinary settings cls info (.compound op) opSpan left right).run session).1
    let before := (evaluate lib budget original).run state
    let after := (evaluate lib budget lowered).run state
    after.1 = before.1 ∧ state.SameFrom before.2 after.2 := by
  intro original lowered before after
  have hsame (heq : evaluate lib budget lowered = evaluate lib budget original) :
      after.1 = before.1 ∧ state.SameFrom before.2 after.2 := by
    have hafter : after = before := congrArg (fun x => x.run state) heq
    rw [hafter]
    exact ⟨rfl, .refl _ _⟩
  cases hresolved : info.facts.operatorTarget with
  | none =>
      -- Without a method the assignment stays what it was.
      apply hsame
      simp only [lowered, lowerBinary, hresolved]
      rfl
  | some target =>
      by_cases henabled : settings.config.isEnabled .binaryOperators = true
      · have hrule : lowered = ((lowerOperatorAssignment settings cls info.span opSpan
            info.facts.inferredType target left right).run session).1 := by
          simp only [lowered, lowerBinary, hresolved, henabled, if_true, lowerResolvedOperator]
        have hbefore : evaluate lib budget original =
            left.evalPlace lib budget (runBody lib budget) >>=
              completeCompound lib budget (runBody lib budget) (some target) op right := by
          rw [← hresolved]
          exact eval_compound budget info op opSpan left right
        cases hsimple : left.isSimpleTarget with
        | true =>
            apply hsame
            rw [hbefore, hrule, lowerOperatorAssignment,
              stableTarget_of_isSimpleTarget settings cls hsimple]
            exact eval_methodAssignment info.span opSpan _ target op hsimple right
        | false =>
            obtain ⟨body, hblock, hanswers⟩ := lowersToBlock cls session hlib hstate info.span
              opSpan info.facts.inferredType target op htarget hsimple hnames (hstands hsimple)
            simp only [before, after, hbefore, hrule, hblock]
            exact hstate.run_block _ hanswers
      · apply hsame
        simp only [lowered, lowerBinary, hresolved, henabled]
        rfl

end Rule

/-! ### Two lists -/

def noNatives : Library :=
  ⟨.initial, {}⟩

theorem seesNoClosures_noNatives : noNatives.SeesNoClosures :=
  fun _ _ hnative => nomatch hnative

/-- Nothing is resolved but what a node says. -/
def plainSettings : Settings :=
  ⟨.initial, .ofTypes .initial, {}⟩

def resolvedPlus : Info :=
  { facts := { operatorTarget := some ⟨⟨0⟩, "plus"⟩ } }

def integer (n : Int64) : Expr :=
  .literal {} (.integer n)

/-- `a[index] += 1` -/
def incrementAt (receiver index : Expr) : Expr :=
  .binary resolvedPlus (.compound .plus) {} (.binary {} .index {} receiver index) (integer 1)

def loweredIncrementAt (receiver index : Expr) : Expr :=
  ((lowerBinary plainSettings .object resolvedPlus (.compound .plus) {}
    (.binary {} .index {} receiver index) (integer 1)).run {}).1

/-- `"x".size()` -/
def sizeOfText : Expr :=
  .methodCall {} (.literal {} (.string "x")) "size" [] false false

/-- Two variables with a list each. -/
def listsState : State where
  heap := { sequences := #[#[.int 10, .int 20], #[.int 100, .int 200]] }
  scopes := #[⟨[("a", .list 0), ("b", .list 1)]⟩]

/-- `a["x".size()] += 1` -/
theorem evaluate_lowerBinary_compound_computedIndex :
    let after := (evaluate noNatives 1 (loweredIncrementAt (.var {} "a" none) sizeOfText)).run
      listsState
    after.1 = .ok (.int 21) ∧ after.2.log = #["size", "plus"] ∧
      after.2.lookup? "a" = some (.list 0) := by
  intro after
  have hscoped : listsState.WellScoped := ⟨by decide, fun _ _ hcode => nomatch hcode⟩
  let element := Expr.binary {} .index {} (.var {} "a" none) sizeOfText
  have hnames : ∀ name ∈ element.names ++ (integer 1).names,
      ¬ IsSynthetic plainSettings.config.temporaryStem name := by
    decide +kernel
  have hstands : StandsInBlock noNatives 1 listsState element (integer 1) := by
    refine ⟨nofun, fun _ => ⟨.list 0, rfl, ?_⟩⟩
    intro value after hindex
    have hkept : ((evaluate noNatives 1 sizeOfText).run listsState).2.lookup? "a" =
        some (.list 0) := by
      decide +kernel
    rwa [hindex] at hkept
  obtain ⟨hresult, hsame⟩ := evaluate_lowerBinary_compound .object {} seesNoClosures_noNatives
    hscoped resolvedPlus .plus {} rfl hnames fun _ => hstands
  refine ⟨hresult.trans ?_, hsame.log.trans ?_, (hsame.vars "a").trans ?_⟩
  all_goals decide +kernel

/-- An index in a temporary comes before a receiver that stays in place, and the names that an
operand binds stay in the block. -/
theorem evaluate_lowerBinary_compound_reordered :
    let run (e : Expr) := (evaluate noNatives 1 e).run listsState
    let a := Expr.var {} "a" none
    let unbound := Expr.var {} "c" none
    let rebind := Expr.block {} [.expr (.binary {} .assign {} a (.var {} "b" none)),
      .expr (integer 0)]
    let declare := Expr.declaration {} "k" none (integer 0)
    let assign := Expr.binary {} .assign {} (.var {} "k" none) (integer 0)
    ((run (incrementAt a rebind)).1 = .ok (.int 11) ∧
        (run (loweredIncrementAt a rebind)).1 = .ok (.int 101)) ∧
      ((run (incrementAt unbound sizeOfText)).2.log = #[] ∧
        (run (loweredIncrementAt unbound sizeOfText)).2.log = #["size"]) ∧
      ((run (incrementAt a declare)).2.lookup? "k" = some (.int 0) ∧
        (run (loweredIncrementAt a declare)).2.lookup? "k" = none) ∧
      (run (incrementAt a assign)).2.lookup? "k" = some (.int 0) ∧
        (run (loweredIncrementAt a assign)).2.lookup? "k" = none := by
  refine ⟨⟨?_, ?_⟩, ⟨?_, ?_⟩, ⟨?_, ?_⟩, ?_, ?_⟩
  all_goals decide +kernel

end StaticDispatch
