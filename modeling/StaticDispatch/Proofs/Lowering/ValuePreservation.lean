import StaticDispatch.Proofs.Lowering.Terms
import StaticDispatch.Proofs.Types.Reachable

/-!
# The complete pass keeps values

With all rules on, comparisons go through the adapter, array calls lose their
dispatch, and keyword constructors evaluate their arguments inside a closure,
between the allocation of the object and the writes to its fields.  On the
expressions below, with assignments anywhere in them, the lowered tree gives
the value of its original wherever that has one, and leaves the same
variables and sequences.
-/

namespace StaticDispatch

open EvalM LowerM

/-- All rules may run, comparisons have the routines of the table, and there is no native
but a pure maximum. -/
structure CompletePass (settings : Settings) (lib : Library) : Prop where
  types : settings.types.Reachable
  adapters : settings.adapters = .ofTypes settings.types
  rules : ∀ rule, settings.config.isEnabled rule = true
  natives : lib.OnlyMaximum

section Rules

variable {settings : Settings} {lib : Library} {start : State} {rounds : Nat}
  {bodies : Block → EvalM Flow} {least : Nat}

/-! ## Nodes -/

/-- What a plain call may become: itself, or access to an element. -/
theorem drawsFrom_lowerPlainCall (cls : TypeId) {info : Info} {receiver : Expr} {name : String}
    {args : List Expr} {spread : Bool} {property : Nat → Expr → Prop}
    (hplain : ∀ next, least ≤ next →
      property next (.methodCall info receiver name args false spread))
    (hread : ∀ component index next, name = "getAt" → args = [index] → least ≤ next →
      property next (elementAt info receiver component index))
    (hwrite : ∀ component index value next, name = "putAt" → args = [index, value] →
      least ≤ next → property next (.binary info.span.info .assign value.span
        (elementAt info receiver component index) value)) :
    DrawsFrom least (lowerPlainCall settings cls info receiver name args spread) property := by
  unfold lowerPlainCall
  split
  · unfold lowerArrayAccess
    cases haccess : arrayAccess? settings.types cls receiver name args with
    | none => exact drawsFrom_pure hplain
    | some access =>
        unfold arrayAccess? at haccess
        split at haccess
        · split at haccess
          · rename_i hname
            obtain rfl := Option.some.inj haccess
            simp only [Bool.and_eq_true, beq_iff_eq] at hname
            apply DrawsFrom.count_bind
            apply drawsFrom_pure
            exact fun next hnext => hread _ _ next hname.1 rfl hnext
          · exact nomatch haccess
        · split at haccess
          · rename_i hname
            obtain rfl := Option.some.inj haccess
            simp only [Bool.and_eq_true, beq_iff_eq] at hname
            apply DrawsFrom.count_bind
            apply drawsFrom_pure
            exact fun next hnext => hwrite _ _ _ next hname.1 rfl hnext
          · exact nomatch haccess
        · exact nomatch haccess
  · exact drawsFrom_pure hplain

theorem drawsFrom_splitReceiver (cls : TypeId) (receiver : Expr) :
    DrawsFrom least (splitReceiver settings cls receiver) fun next pair =>
      pair = (receiver, receiver) ∨ ∃ number type, number < next ∧
        pair.1 = .declaration receiver.span.info
          (syntheticName settings.config.temporaryStem number) type receiver ∧
        pair.2 = .var receiver.span.info
          (syntheticName settings.config.temporaryStem number) type := by
  unfold splitReceiver
  split
  · intro session hleast
    obtain ⟨hgrows, htemporary⟩ := drawsFrom_bindTemporary settings cls receiver session hleast
    exact ⟨hgrows, .inr htemporary⟩
  · exact drawsFrom_pure fun _ _ => .inl rfl

/-! ## Trees -/

theorem drawsFrom_lowerPlus (hpass : CompletePass settings lib) (cls : TypeId) {info : Info}
    (hinfo : info.ResolvesTo "plus") (opSpan : Span) {depth number : Nat}
    {left left' right right' : Expr}
    (hleft : left.FollowedBy settings.config start lib rounds bodies depth number left')
    (hright : right.FollowedBy settings.config start lib rounds bodies depth number right') :
    DrawsFrom number (lowerBinary settings cls info (.arithmetic .plus) opSpan left' right')
      ((Expr.binary info (.arithmetic .plus) opSpan left right).FollowedBy settings.config start
        lib rounds bodies depth) := by
  obtain ⟨target, htarget, hname⟩ := hinfo
  simp only [lowerBinary, htarget, hpass.rules, if_true, lowerResolvedOperator,
    lowerOperatorCall]
  apply DrawsFrom.count_bind
  apply drawsFrom_pure
  intro next hnext
  exact followedBy_plus hpass.natives htarget hname (hleft.mono (Nat.le_refl _) hnext)
    (hright.mono (Nat.le_refl _) hnext) opSpan info.span info.facts.inferredType

theorem drawsFrom_lowerComparison (hpass : CompletePass settings lib) (cls : TypeId)
    {info : Info} (hinfo : info.ResolvesTo "compareTo") (op : Comparison) (opSpan : Span)
    {depth number : Nat} {left left' right right' : Expr}
    (hleft : left.FollowedBy settings.config start lib rounds bodies depth number left')
    (hright : right.FollowedBy settings.config start lib rounds bodies depth number right') :
    DrawsFrom number (lowerBinary settings cls info (.comparison op) opSpan left' right')
      ((Expr.binary info (.comparison op) opSpan left right).FollowedBy settings.config start
        lib rounds bodies depth) := by
  obtain ⟨routine, hroutine, howner, hname⟩ := hpass.types.exists_routine op
  rw [← hpass.adapters] at hroutine
  obtain ⟨target, htarget, -⟩ := id hinfo
  simp only [lowerBinary, htarget, hpass.rules, if_true, lowerResolvedOperator, hroutine]
  apply DrawsFrom.count_bind
  apply drawsFrom_pure
  intro next hnext
  exact followedBy_comparison hpass.natives hinfo howner hname
    (hleft.mono (Nat.le_refl _) hnext) (hright.mono (Nat.le_refl _) hnext) opSpan info.span
    info.facts.inferredType

theorem drawsFrom_lowerAddTo (hpass : CompletePass settings lib) (cls : TypeId) {info : Info}
    (hinfo : info.ResolvesTo "plus") (opSpan : Span) (vinfo : Info) {name : String}
    (type : Option TypeId) (hname : start.HasInteger name)
    (hplain : ¬ settings.config.Introduces name) {depth number : Nat} {value value' : Expr}
    (hvalue : value.FollowedBy settings.config start lib rounds bodies depth number value') :
    DrawsFrom number
      (lowerBinary settings cls info (.compound .plus) opSpan (.var vinfo name type) value')
      ((Expr.binary info (.compound .plus) opSpan (.var vinfo name type) value).FollowedBy
        settings.config start lib rounds bodies depth) := by
  obtain ⟨target, htarget, hmethod⟩ := hinfo
  simp only [lowerBinary, htarget, hpass.rules, if_true, lowerResolvedOperator,
    lowerOperatorAssignment, stableTarget, pure_bind]
  apply DrawsFrom.count_bind
  apply drawsFrom_pure
  intro next hnext
  exact followedBy_addTo hpass.natives htarget hmethod hname hplain
    (hvalue.mono (Nat.le_refl _) hnext) opSpan info.span _ vinfo type _

theorem drawsFrom_lowerMaximum (hpass : CompletePass settings lib) {info : Info}
    (hinfo : info.facts.callTarget.isSome = true) (owner : TypeId) {depth number : Nat}
    {left left' right right' : Expr}
    (hleft : left.FollowedBy settings.config start lib rounds bodies depth number left')
    (hright : right.FollowedBy settings.config start lib rounds bodies depth number right') :
    DrawsFrom number (lowerStaticCall settings info owner "max" [left', right'])
      ((Expr.staticCall info owner "max" [left, right]).FollowedBy settings.config start lib
        rounds bodies depth) := by
  simp only [lowerStaticCall, hpass.rules, hinfo, Bool.and_true, if_true]
  apply DrawsFrom.count_bind
  apply drawsFrom_pure
  intro next hnext
  exact followedBy_maximum hpass.natives (hleft.mono (Nat.le_refl _) hnext)
    (hright.mono (Nat.le_refl _) hnext) info info _ owner

theorem drawsFrom_lowerSize (hpass : CompletePass settings lib) (cls : TypeId) (info vinfo : Info)
    {name : String} (type : Option TypeId) (hname : start.HasText name)
    (hplain : ¬ settings.config.Introduces name) (depth : Nat) :
    DrawsFrom least
      (lowerMethodCall settings cls info (.var vinfo name type) "size" [] true false)
      ((Expr.methodCall info (.var vinfo name type) "size" [] true false).FollowedBy
        settings.config start lib rounds bodies depth) := by
  simp only [lowerMethodCall, if_true, hpass.rules, lowerSafeCall]
  refine (drawsFrom_splitReceiver cls (.var vinfo name type)).bind ?_
  rintro ⟨checked, called⟩ number - hsplit
  apply DrawsFrom.count_bind
  have hcall : DrawsFrom number (lowerPlainCall settings cls info called "size" [] false)
      fun _ out => out = .methodCall info called "size" [] false false := by
    apply drawsFrom_lowerPlainCall cls
    · exact fun _ _ => rfl
    · exact fun _ _ _ _ hargs _ => nomatch hargs
    · exact fun _ _ _ _ _ hargs _ => nomatch hargs
  refine hcall.bind ?_
  rintro out next hnext rfl
  apply drawsFrom_pure
  intro last hlast
  apply followedBy_size hpass.natives hname hplain
  rcases hsplit with hsame | ⟨drawn, drawnType, hdrawn, hchecked, hcalled⟩
  · exact .inl hsame
  · exact .inr ⟨drawn, drawnType, by omega, hchecked, hcalled⟩

theorem drawsFrom_lowerGetAt (hpass : CompletePass settings lib) (cls : TypeId)
    (info vinfo : Info) {name : String} (type : Option TypeId) (hname : start.HasArray name)
    (hplain : ¬ settings.config.Introduces name) {depth number : Nat} {index index' : Expr}
    (hindex : index.FollowedBy settings.config start lib rounds bodies depth number index') :
    DrawsFrom number
      (lowerMethodCall settings cls info (.var vinfo name type) "getAt" [index'] false false)
      ((Expr.methodCall info (.var vinfo name type) "getAt" [index] false false).FollowedBy
        settings.config start lib rounds bodies depth) := by
  have hfollowed : ∀ component next, number ≤ next → _ := fun component next hnext =>
    followedBy_getAt hpass.natives hname hplain (hindex.mono (Nat.le_refl _) hnext) info info
      vinfo type component
  simp only [lowerMethodCall, Bool.false_eq_true, if_false]
  apply drawsFrom_lowerPlainCall
  · exact fun next hnext => (hfollowed .object next hnext).1
  · intro component i next _ hargs hnext
    obtain rfl := List.singleton_inj.mp hargs
    exact (hfollowed component next hnext).2
  · exact fun _ _ _ _ hput => absurd hput (by decide)

theorem drawsFrom_lowerPutAt (hpass : CompletePass settings lib) (cls : TypeId)
    (info vinfo : Info) {name : String} (type : Option TypeId) (hname : start.HasArray name)
    (hplain : ¬ settings.config.Introduces name) {depth number : Nat}
    {index index' value value' : Expr}
    (hindex : index.FollowedBy settings.config start lib rounds bodies depth number index')
    (hvalue : value.FollowedBy settings.config start lib rounds bodies depth number value') :
    DrawsFrom number
      (lowerMethodCall settings cls info (.var vinfo name type) "putAt" [index', value'] false
        false)
      ((Expr.methodCall info (.var vinfo name type) "putAt" [index, value] false
        false).FollowedBy settings.config start lib rounds bodies depth) := by
  have hfollowed : ∀ component next, number ≤ next → _ := fun component next hnext =>
    followedBy_putAt hpass.natives hname hplain (hindex.mono (Nat.le_refl _) hnext)
      (hvalue.mono (Nat.le_refl _) hnext) info info info.span.info vinfo type component
      value'.span
  simp only [lowerMethodCall, Bool.false_eq_true, if_false]
  apply drawsFrom_lowerPlainCall
  · exact fun next hnext => (hfollowed .object next hnext).1
  · exact fun _ _ _ hget => absurd hget (by decide)
  · intro component i v next _ hargs hnext
    simp only [List.cons.injEq, and_true] at hargs
    obtain ⟨rfl, rfl⟩ := hargs
    exact (hfollowed component next hnext).2

/-- The entries keep their literal keys, and their values follow. -/
theorem drawsFrom_lowerEntries (cls : TypeId) {entries : List Entry}
    (hkeys : ∀ entry ∈ entries, ∃ key, entry.key.stringLiteral? = some key)
    (hvalues : ∀ entry ∈ entries, ∀ least, DrawsFrom least (entry.value.lower settings cls)
      (entry.value.FollowedBy settings.config start lib rounds bodies entry.value.nodes.length))
    (least : Nat) :
    DrawsFrom least (lowerEntries settings cls entries) fun next outs =>
      List.Forall₂ (fun entry out => ∃ key, entry.key.stringLiteral? = some key ∧
        out.key.stringLiteral? = some key ∧
        entry.value.FollowedBy settings.config start lib rounds bodies
          (nodesOfEntries entries).length next out.value) entries outs := by
  induction entries generalizing least with
  | nil => exact drawsFrom_pure fun _ _ => .nil
  | cons entry rest ih =>
      obtain ⟨key, hkey⟩ := hkeys entry List.mem_cons_self
      have hvalue := hvalues entry List.mem_cons_self
      obtain ⟨name, value, span⟩ := entry
      obtain ⟨info, rfl⟩ := Expr.exists_of_stringLiteral? hkey
      simp only [lowerEntries, Expr.lower, pure_bind]
      refine (hvalue least).bind fun out number hnumber hout => ?_
      refine (ih (fun other hother => hkeys other (List.mem_cons_of_mem _ hother))
        (fun other hother => hvalues other (List.mem_cons_of_mem _ hother)) number).bind
        fun outs next hnext houts => ?_
      apply drawsFrom_pure
      intro last hlast
      have hlength : value.nodes.length ≤
            (nodesOfEntries (.mk (.literal info (.string key)) value span :: rest)).length ∧
          (nodesOfEntries rest).length ≤
            (nodesOfEntries (.mk (.literal info (.string key)) value span :: rest)).length := by
        simp only [nodesOfEntries, List.length_append]
        omega
      refine .cons ⟨key, rfl, rfl, hout.mono hlength.1 (Nat.le_trans hnext hlast)⟩ ?_
      refine houts.imp ?_
      rintro other out' ⟨key', hother, hout', hfollowed⟩
      exact ⟨key', hother, hout', hfollowed.mono hlength.2 hlast⟩

theorem drawsFrom_lowerField (hpass : CompletePass settings lib) (cls : TypeId) (info : Info)
    {cinfo : Info} {ctor : MethodId} {type : TypeId}
    (hctor : cinfo.facts.callTarget = some (.constructor ctor))
    (howner : mapConstructorOwner? settings.types ctor = some type) (minfo : Info)
    {entries : List Entry}
    (hkeys : ∀ entry ∈ entries, ∃ key, entry.key.stringLiteral? = some key)
    (hvalues : ∀ entry ∈ entries, ∀ least, DrawsFrom least (entry.value.lower settings cls)
      (entry.value.FollowedBy settings.config start lib rounds bodies entry.value.nodes.length))
    (name : String) :
    let field := Expr.property info (.constructorCall cinfo type [.map minfo entries]) name
    DrawsFrom least (field.lower settings cls)
      (field.FollowedBy settings.config start lib rounds bodies field.nodes.length) := by
  simp only [Expr.lower, lowerExprs, bind_assoc, pure_bind]
  refine (drawsFrom_lowerEntries cls hkeys hvalues least).bind fun outs number hnumber houts => ?_
  have hliteral : outs.all (fun out => out.key.stringLiteral?.isSome) = true := by
    clear hvalues hkeys
    generalize (nodesOfEntries entries).length = depth at houts
    induction houts with
    | nil => rfl
    | cons hentry _ ih =>
        obtain ⟨key, -, hout, -⟩ := hentry
        rw [List.all_cons, ih, hout]
        rfl
  have hkeyword : keywordConstructor? settings.types cinfo [.map minfo outs] =
      some (type, outs) := by
    simp only [keywordConstructor?, Metadata.targetConstructor?, hctor, howner, keywordEntries?,
      hliteral, if_true]
  simp only [lowerConstructorCall, hkeyword, hpass.rules, if_true, bind_assoc, pure_bind]
  refine (drawsFrom_freshName settings.config.localStem).bind ?_
  rintro fresh next hnext ⟨drawn, hdrawn, rfl, rfl⟩
  apply DrawsFrom.count_bind
  apply DrawsFrom.registerScope_bind
  intro scope
  apply drawsFrom_pure
  intro last hlast loops budget hbudget
  have hdepth : (nodesOfEntries entries).length + 3 ≤ budget := by
    simpa [Expr.nodes, nodesOfExprs, Nat.add_assoc] using hbudget
  obtain ⟨budget, rfl⟩ : ∃ n, budget = n + 1 := ⟨budget - 1, by omega⟩
  have hentries : List.Forall₂ (EntryFollows settings.config start drawn lib rounds budget bodies
      (runBody lib budget)) entries outs := by
    refine houts.imp ?_
    rintro entry out ⟨key, hentry, hout, hfollowed⟩
    exact ⟨key, hentry, hout, (hfollowed budget budget (by omega)).mono hdrawn⟩
  exact (follows_keywordConstructor hpass.natives hentries info info cinfo cinfo minfo cinfo.span
    type scope name).mono hlast

theorem Expr.le_nodes_binary (info : Info) (op : BinaryOp) (opSpan : Span) (left right : Expr) :
    left.nodes.length ≤ (Expr.binary info op opSpan left right).nodes.length ∧
      right.nodes.length ≤ (Expr.binary info op opSpan left right).nodes.length := by
  simp only [Expr.nodes, List.length_cons, List.length_append]
  omega

theorem Expr.le_nodes_ternary (info : Info) (condition yes no : Expr) :
    condition.nodes.length ≤ (Expr.ternary info condition yes no).nodes.length ∧
      yes.nodes.length ≤ (Expr.ternary info condition yes no).nodes.length ∧
      no.nodes.length ≤ (Expr.ternary info condition yes no).nodes.length := by
  simp only [Expr.nodes, List.length_cons, List.length_append]
  omega

theorem le_nodesOfExprs {e : Expr} {items : List Expr} (h : e ∈ items) :
    e.nodes.length ≤ (nodesOfExprs items).length := by
  induction items with
  | nil => exact nomatch h
  | cons item rest ih =>
      simp only [nodesOfExprs, List.length_append]
      rcases List.mem_cons.mp h with rfl | hrest
      · exact Nat.le_add_right _ _
      · exact Nat.le_add_left_of_le (ih hrest)

theorem Expr.le_nodes_methodCall {info : Info} {receiver : Expr} {name : String}
    {args : List Expr} {safe spread : Bool} {arg : Expr} (h : arg ∈ args) :
    arg.nodes.length ≤ (Expr.methodCall info receiver name args safe spread).nodes.length := by
  have harg := le_nodesOfExprs h
  simp only [Expr.nodes, List.length_cons, List.length_append]
  omega

theorem Expr.le_nodes_staticCall {info : Info} {owner : TypeId} {name : String}
    {args : List Expr} {arg : Expr} (h : arg ∈ args) :
    arg.nodes.length ≤ (Expr.staticCall info owner name args).nodes.length := by
  have harg := le_nodesOfExprs h
  simp only [Expr.nodes, List.length_cons]
  omega

/-- Lowering a term gives an expression that follows it, whatever the session. -/
theorem drawsFrom_lower (hpass : CompletePass settings lib) (cls : TypeId) {e : Expr}
    (he : e.IsTerm settings.config settings.types start) (least : Nat) :
    DrawsFrom least (e.lower settings cls)
      (e.FollowedBy settings.config start lib rounds bodies e.nodes.length) := by
  induction he generalizing least with
  | integer info n =>
      exact drawsFrom_pure fun _ _ _ _ _ => follows_pure trivial
  | var info type hname hplain =>
      exact drawsFrom_pure fun next _ _ _ _ => hname.follows hplain next
  | size info vinfo type hname hplain =>
      simp only [Expr.lower, lowerExprs, pure_bind]
      exact drawsFrom_lowerSize hpass cls info vinfo type hname hplain _
  | @getAt info vinfo name type index hname hplain _ ih =>
      simp only [Expr.lower, lowerExprs, bind_assoc, pure_bind]
      refine (ih least).bind fun index' number _ hindex => ?_
      exact drawsFrom_lowerGetAt hpass cls info vinfo type hname hplain
        (hindex.mono (Expr.le_nodes_methodCall (by simp)) (Nat.le_refl _))
  | @putAt info vinfo name type index value hname hplain _ _ ihindex ihvalue =>
      simp only [Expr.lower, lowerExprs, bind_assoc, pure_bind]
      refine (ihindex least).bind fun index' number _ hindex => ?_
      refine (ihvalue number).bind fun value' next hnext hvalue => ?_
      exact drawsFrom_lowerPutAt hpass cls info vinfo type hname hplain
        (hindex.mono (Expr.le_nodes_methodCall (by simp)) hnext)
        (hvalue.mono (Expr.le_nodes_methodCall (by simp)) (Nat.le_refl _))
  | @plus info hinfo opSpan left right _ _ ihleft ihright =>
      have hdepth := Expr.le_nodes_binary info (.arithmetic .plus) opSpan left right
      simp only [Expr.lower]
      refine (ihleft least).bind fun left' number _ hleft => ?_
      refine (ihright number).bind fun right' next hnext hright => ?_
      exact drawsFrom_lowerPlus hpass cls hinfo opSpan (hleft.mono hdepth.1 hnext)
        (hright.mono hdepth.2 (Nat.le_refl _))
  | @compare info hinfo opSpan left right _ _ ihleft ihright =>
      have hdepth := Expr.le_nodes_binary info (.comparison .threeWay) opSpan left right
      simp only [Expr.lower]
      refine (ihleft least).bind fun left' number _ hleft => ?_
      refine (ihright number).bind fun right' next hnext hright => ?_
      exact drawsFrom_lowerComparison hpass cls hinfo .threeWay opSpan
        (hleft.mono hdepth.1 hnext) (hright.mono hdepth.2 (Nat.le_refl _))
  | @choose info cinfo hinfo opSpan op _ left right yes no _ _ _ _ ihleft ihright ihyes ihno =>
      have hdepth := Expr.le_nodes_binary cinfo (.comparison op) opSpan left right
      have hbranches := Expr.le_nodes_ternary info
        (.binary cinfo (.comparison op) opSpan left right) yes no
      simp only [Expr.lower, bind_assoc]
      refine (ihleft least).bind fun left' number _ hleft => ?_
      refine (ihright number).bind fun right' next hnext hright => ?_
      refine (drawsFrom_lowerComparison hpass cls hinfo op opSpan (hleft.mono hdepth.1 hnext)
        (hright.mono hdepth.2 (Nat.le_refl _))).bind fun condition' after _ hcondition => ?_
      refine (ihyes after).bind fun yes' later hlater hyes => ?_
      refine (ihno later).bind fun no' last hlast hno => ?_
      apply drawsFrom_pure
      intro end' hend
      exact followedBy_ternary (hcondition.mono hbranches.1 (by omega))
        (hyes.mono hbranches.2.1 (by omega)) (hno.mono hbranches.2.2 hend) info info
  | @maximum info hinfo owner _ left right _ _ ihleft ihright =>
      simp only [Expr.lower, lowerExprs, bind_assoc, pure_bind]
      refine (ihleft least).bind fun left' number _ hleft => ?_
      refine (ihright number).bind fun right' next hnext hright => ?_
      exact drawsFrom_lowerMaximum hpass hinfo owner
        (hleft.mono (Expr.le_nodes_staticCall (by simp)) hnext)
        (hright.mono (Expr.le_nodes_staticCall (by simp)) (Nat.le_refl _))
  | field info hctor howner minfo hkeys _ name ih =>
      exact drawsFrom_lowerField hpass cls info hctor howner minfo hkeys ih name
  | @addTo info hinfo opSpan vinfo name type hname hplain value _ ih =>
      have hdepth := Expr.le_nodes_binary info (.compound .plus) opSpan (.var vinfo name type)
        value
      simp only [Expr.lower, pure_bind]
      refine (ih least).bind fun value' number _ hvalue => ?_
      exact drawsFrom_lowerAddTo hpass cls hinfo opSpan vinfo type hname hplain
        (hvalue.mono hdepth.2 (Nat.le_refl _))

end Rules

/-! ## Programs -/

/-- Scopes that are visible exist, and so does what sequences and maps refer to. -/
structure State.WellFormed (state : State) : Prop where
  scope : state.HasScope
  visible : ∀ id ∈ state.env, id < state.scopes.size
  items : ∀ a, ∀ value ∈ (state.heap.items a).toList, value.KnownIn state.heap
  entries : ∀ a, ∀ value ∈ (state.heap.entries a).values, value.KnownIn state.heap

theorem State.WellFormed.follows {state : State} (h : state.WellFormed) (config : Config) :
    State.Follows config state [] state state where
  heap :=
    { sequences := rfl
      keptLeft := Heap.Keeps.refl _
      keptRight := Heap.Keeps.refl _
      items := h.items
      entries := fun a _ => h.entries a }
  env := rfl
  scope := h.scope
  visible := h.visible
  size := Nat.le_refl _
  vars _ _ _ _ := rfl
  inner := nofun
  known _ value hvalue hknown := ⟨value, hvalue, hknown⟩
  arrays _ _ h := h

/-- Where a term has a value, its lowered form has the same one, and leaves the same sequences
and variables, save for temporaries.  What else was in the heap is as it was. -/
theorem evaluate_lower_preserves {settings : Settings} {lib : Library}
    (hpass : CompletePass settings lib) (cls : TypeId) (session : Session) {state : State}
    (hstate : state.WellFormed) {e : Expr}
    (he : e.IsTerm settings.config settings.types state) (rounds : Nat) {value : Value}
    {after : State} (hrun : (evaluate lib rounds e).run state = (.ok value, after))
    (budget : Nat) (hbudget : e.nodes.length ≤ budget) :
    let out := ((e.lower settings cls).run session).1
    ∃ after', (evaluate lib budget out).run state = (.ok value, after') ∧
      after'.heap.sequences = after.heap.sequences ∧
      state.heap.Keeps after.heap ∧ state.heap.Keeps after'.heap ∧
      after'.env = after.env ∧
      ∀ id < after.scopes.size, ∀ name, ¬ IsSynthetic settings.config.temporaryStem name →
        Scopes.get? after'.scopes id name = Scopes.get? after.scopes id name := by
  intro out
  have hdraws : DrawsFrom 0 (e.lower settings cls) (e.FollowedBy settings.config state lib rounds
      (runBody lib rounds) e.nodes.length) := drawsFrom_lower hpass cls he 0
  obtain ⟨-, hfollowed⟩ := hdraws session (Nat.zero_le _)
  obtain ⟨after', hrun', hfollows, -, -⟩ := hfollowed budget budget hbudget [] state state value
    after (hstate.follows settings.config) hrun
  exact ⟨after', hrun', hfollows.heap.sequences, hfollows.heap.keptLeft,
    hfollows.heap.keptRight, hfollows.env, hfollows.vars⟩

/-! ## Fields of a fresh object -/

/-- The starting table with a class `P` that has a field `a` and a constructor from a map, and
with a class `MathUtil`. -/
def pointTypes : TypeTable :=
  (((TypeTable.initial.declare (.classType "P" .object)).declare (.field ⟨27⟩ "a" .int)).declare
    (.mapConstructor ⟨27⟩)).declare (.classType "MathUtil" .object)

def pointSettings : Settings :=
  ⟨pointTypes, .ofTypes pointTypes, {}⟩

/-- The greater of two integers. -/
def Native.maximum : Native :=
  ⟨fun _ args heap =>
    match args with
    | [.int a, .int b] => (.ok (.int (if a < b then b else a)), heap)
    | _ => (.error "max() expects two integers", heap)⟩

def pointLibrary : Library :=
  ⟨pointTypes, OrderedMap.empty.insert "MathUtil.max" .maximum⟩

theorem Native.isPure_maximum : Native.maximum.IsPure := by
  refine ⟨fun receiver args => (Native.maximum.call receiver args {}).1, ?_, ?_⟩
  · intro receiver args heap
    unfold Native.maximum
    dsimp only
    split <;> rfl
  · intro receiver args value hvalue
    unfold Native.maximum at hvalue
    dsimp only at hvalue
    split at hvalue
    · obtain rfl := Except.ok.inj hvalue
      exact .inr fun _ => trivial
    · exact nomatch hvalue

theorem completePass_point : CompletePass pointSettings pointLibrary where
  types := by
    change pointTypes.Reachable
    unfold pointTypes
    refine .step (.step (.step (.step .start _ ?_) _ ?_) _ ?_) _ ?_
    all_goals
      unfold Declaration.InRange
      decide +kernel
  adapters := rfl
  rules rule := by cases rule <;> decide
  natives key native hnative := by
    unfold pointLibrary at hnative
    rw [OrderedMap.get?_insert] at hnative
    split at hnative
    · rename_i hkey
      obtain rfl := Option.some.inj hnative
      exact ⟨hkey, Native.isPure_maximum⟩
    · exact nomatch hnative

/-- `new P(a: value).a` -/
def pointField (value : Expr) : Expr :=
  .property {}
    (.constructorCall { facts := .ofCallTarget (.constructor ⟨7⟩) } ⟨27⟩
      [.map {} [.mk (.literal {} (.string "a")) value {}]])
    "a"

/-- `new P(a: x += 2).a + MathUtil::max(x, 1)` -/
def fieldAndMaximum : Expr :=
  let plus : Info := { facts := { operatorTarget := some ⟨⟨0⟩, "plus"⟩ } }
  .binary plus (.arithmetic .plus) {}
    (pointField (.binary plus (.compound .plus) {} (.var {} "x" none) (.literal {} (.integer 2))))
    (.staticCall { facts := .ofCallTarget (.method ⟨0⟩) } ⟨28⟩ "max"
      [.var {} "x" none, .literal {} (.integer 1)])

theorem evaluate_lower_preserves_fieldAndMaximum :
    let state : State := { scopes := #[⟨[("x", .int 1)]⟩] }
    let out := ((fieldAndMaximum.lower pointSettings .object).run {}).1
    ((evaluate pointLibrary 11 out).run state).1 = .ok (.int 6) := by
  intro state out
  have hwellFormed : state.WellFormed := ⟨⟨0, [], rfl, by decide⟩, by decide, nofun, nofun⟩
  have hx : state.HasInteger "x" := ⟨.int 1, rfl, .inr ⟨1, rfl⟩⟩
  have hplain : ¬ pointSettings.config.Introduces "x" := by
    rintro (hit | hlocal | htemporary)
    · exact absurd hit (by decide)
    · exact not_isSynthetic_of_not_prefix (by decide) hlocal
    · exact not_isSynthetic_of_not_prefix (by decide) htemporary
  have hterm : fieldAndMaximum.IsTerm pointSettings.config pointSettings.types state := by
    refine .plus ⟨_, rfl, rfl⟩ _ ?_ ?_
    · refine .field _ rfl (by decide +kernel) _ ?_ ?_ _
      · simp [Entry.key, Expr.stringLiteral?]
      · intro entry hentry
        obtain rfl := List.mem_singleton.mp hentry
        exact .addTo ⟨_, rfl, rfl⟩ _ _ _ hx hplain (.integer _ _)
    · exact .maximum rfl (by decide +kernel) (.var _ _ hx hplain) (.integer _ _)
  have hvalue : ((evaluate pointLibrary 0 fieldAndMaximum).run state).1 = .ok (.int 6) := by
    decide +kernel
  rcases hrun : (evaluate pointLibrary 0 fieldAndMaximum).run state with ⟨result, after⟩
  rw [hrun] at hvalue
  subst hvalue
  obtain ⟨after', hafter', -⟩ := evaluate_lower_preserves completePass_point .object {}
    hwellFormed hterm 0 hrun 11 (by decide +kernel)
  rw [hafter']

/-- `new P(a: name?.size()).a` -/
def sizeField (name : String) : Expr :=
  pointField (.methodCall {} (.var {} name none) "size" [] true false)

def textState (name : String) : State :=
  { scopes := #[⟨[(name, .text "abc")]⟩] }

/-- In the closure that a keyword constructor becomes, `it` is the argument of the closure and
`obj$0` the new object: a string that goes by such a name outside is out of reach. -/
theorem evaluate_lower_captured :
    let lowered (name : String) : Expr :=
      (((sizeField name).lower pointSettings .object).run {}).1
    CompletePass pointSettings pointLibrary ∧
      ((textState "it").HasText "it" ∧
        ((evaluate pointLibrary 9 (sizeField "it")).run (textState "it")).1 = .ok (.int 3) ∧
        ((evaluate pointLibrary 9 (lowered "it")).run (textState "it")).1 = .ok .null) ∧
      (textState "obj$0").HasText "obj$0" ∧
        ((evaluate pointLibrary 9 (sizeField "obj$0")).run (textState "obj$0")).1 =
          .ok (.int 3) ∧
        ((evaluate pointLibrary 9 (lowered "obj$0")).run (textState "obj$0")).1 =
          .error (.failed (.noMethod "Object" "size" 0)) := by
  refine ⟨completePass_point, ⟨⟨.text "abc", ?_, .inr ⟨"abc", rfl⟩⟩, ?_, ?_⟩,
    ⟨.text "abc", ?_, .inr ⟨"abc", rfl⟩⟩, ?_, ?_⟩
  all_goals decide +kernel

end StaticDispatch
