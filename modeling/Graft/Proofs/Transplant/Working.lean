import Graft.Proofs.Session.Resolution
import Graft.Proofs.Transplant.Carried

/-!
# A transplant in progress

While a body is carried over, the method that receives it keeps its base body, and the hidden
method, once it is made, holds that body (`Working`). Every part of a transplant is a run that keeps
this in order; `Advances` says so, together with what the part achieves.
-/

namespace Graft

/-- A replacement in progress, later: the hidden method may have been made. -/
structure TransplantContext.Onward (context context' : TransplantContext) : Prop where
  method : context'.method = context.method
  base : context'.base = context.base
  suffix : context'.suffix = context.suffix
  hidden : ∀ method, context.hidden = some method → context'.hidden = some method

/-- The hidden method that is made for a method. -/
def TransplantContext.hiddenMethod (context : TransplantContext) (method : MethodDef)
    (name : String) : MethodDef where
  name
  flags := method.flags &&& Flags.static
  signature := method.signature
  body := context.base

namespace TransplantContext.Onward

variable {context context' context'' : TransplantContext}

theorem refl (context : TransplantContext) : context.Onward context :=
  ⟨rfl, rfl, rfl, fun _ h => h⟩

theorem trans (h : context.Onward context') (h' : context'.Onward context'') :
    context.Onward context'' :=
  ⟨h'.method.trans h.method, h'.base.trans h.base, h'.suffix.trans h.suffix,
    fun method hhidden => h'.hidden method (h.hidden method hhidden)⟩

end TransplantContext.Onward

/-- Whether all that a transformer turns references into is asked for. -/
def Transformer.Asks (asked : Declaration → Prop) (world : World) : Transformer → Prop
  | .plain | .redirecting .. => True
  | .importing importer _ =>
    (∀ token id, (world.importer importer).types.get? token = some id →
      world.decls.has (.type id) = true → asked (.type id)) ∧
    (∀ token id, (world.importer importer).fields.get? token = some id →
      world.decls.has (.field id) = true → asked (.field id)) ∧
    (∀ token id, (world.importer importer).methods.get? token = some id →
      world.decls.has (.method id) = true → asked (.method id))

theorem Transformer.Asks.mono {asked asked' : Declaration → Prop} {world : World}
    {transformer : Transformer} (h : transformer.Asks asked world)
    (himp : ∀ declaration, asked declaration → asked' declaration) :
    transformer.Asks asked' world := by
  cases transformer with
  | plain | redirecting => trivial
  | importing importer bases =>
      exact ⟨fun token id hget hhas => himp _ (h.1 token id hget hhas),
        fun token id hget hhas => himp _ (h.2.1 token id hget hhas),
        fun token id hget hhas => himp _ (h.2.2 token id hget hhas)⟩

/-- Whether a method is listed in its type after methods with other names. -/
def Definitions.NamedApart (defs : Definitions) (owner : DefId .type) (method : DefId .method) :
    Prop :=
  ∃ record front rest, defs.record? (.method method) = some record ∧
    record.nature.owner = some owner ∧
    defs.members (.type owner) .method = front ++ .method method :: rest ∧
    ∀ other ∈ front, ∀ sibling, defs.record? other = some sibling →
      sibling.nature.name ≠ record.nature.name

/-- What a type lists first does not change, nor do names. -/
theorem Definitions.NamedApart.mono {defs defs' : Definitions} {owner : DefId .type}
    {method : DefId .method} (h : defs.NamedApart owner method) (hheld : defs.Held)
    (hgrows : defs.Grows defs') : defs'.NamedApart owner method := by
  obtain ⟨record, front, rest, hrecord, howner, hlisted, hnames⟩ := h
  obtain ⟨record', hrecord', hnature, -⟩ := hgrows.kept _ _ hrecord
  obtain ⟨more, hlisted', hfront⟩ := hgrows.members_front hheld hlisted
  refine ⟨record', front, rest ++ more, hrecord', by rw [hnature, howner], hlisted',
    fun other hother sibling hsibling => ?_⟩
  obtain ⟨before, hbefore, hsame⟩ := hfront other hother sibling hsibling
  rw [hsame, hnature]
  exact hnames other hother before hbefore

/-- Of two methods that are listed after methods with other names, one is listed before the other. -/
theorem Definitions.NamedApart.name_ne {defs : Definitions} {owner : DefId .type}
    {method other : DefId .method} (h : defs.NamedApart owner method)
    (h' : defs.NamedApart owner other) (hne : method ≠ other) :
    (defs.method method).name ≠ (defs.method other).name := by
  have hread {id : DefId .method} {record : Record} (h : defs.record? (.method id) = some record) :
      (defs.method id).name = record.nature.name := by
    cases (Definitions.record?_method (Definitions.has_iff.mpr ⟨_, h⟩)).symm.trans h
    rfl
  obtain ⟨record, front, rest, hrecord, -, hlisted, hnames⟩ := h
  obtain ⟨record', front', rest', hrecord', -, hlisted', hnames'⟩ := h'
  rw [hread hrecord, hread hrecord']
  rcases List.append_eq_append_iff.mp (hlisted.symm.trans hlisted') with
    ⟨between, hfront, hrest⟩ | ⟨between, hfront, hrest⟩
  · cases between with
    | nil => exact absurd (Definition.method.inj (List.cons.inj hrest).1) hne
    | cons first between =>
        obtain ⟨rfl, -⟩ := List.cons.inj hrest
        exact hnames' _ (by simp [hfront]) record hrecord
  · cases between with
    | nil => exact absurd (Definition.method.inj (List.cons.inj hrest).1).symm hne
    | cons first between =>
        obtain ⟨rfl, -⟩ := List.cons.inj hrest
        exact (hnames _ (by simp [hfront]) record' hrecord').symm

/-- Whether a definition is a hidden method for another one: it has its signature, holds a given
body, and is listed in the same type after methods with other names. -/
def Definitions.Hides (defs : Definitions) (base : Option Body) (method hidden : DefId .method) :
    Prop :=
  ∃ record made owner front rest, defs.record? (.method method) = some record ∧
    record.nature.owner = some owner ∧
    defs.record? (.method hidden) = some made ∧
    made.nature.shape = record.nature.shape ∧ made.nature.owner = some owner ∧
    made.body = base ∧
    defs.members (.type owner) .method = front ++ .method hidden :: rest ∧
    ∀ other ∈ front, ∀ sibling, defs.record? other = some sibling →
      sibling.nature.name ≠ made.nature.name

theorem Definitions.Hides.namedApart {defs : Definitions} {base : Option Body}
    {method hidden : DefId .method} (h : defs.Hides base method hidden) :
    ∃ owner, defs.NamedApart owner hidden := by
  obtain ⟨_, made, owner, front, rest, -, -, hmade, -, howner, -, hnames⟩ := h
  exact ⟨owner, made, front, rest, hmade, howner, hnames⟩

/-- A hidden method stays one as long as it keeps its body. -/
theorem Definitions.Hides.mono {defs defs' : Definitions} {base : Option Body}
    {method hidden : DefId .method} (hhides : defs.Hides base method hidden) (hheld : defs.Held)
    (hgrows : defs.Grows defs') (hkeeps : ∀ made made', defs.record? (.method hidden) = some made →
      defs'.record? (.method hidden) = some made' → made'.body = made.body) :
    defs'.Hides base method hidden := by
  obtain ⟨record, made, owner, front, rest, hrecord, howner, hmade, hshape, howner', hbody,
    hlisted, hnames⟩ := hhides
  obtain ⟨record', hrecord', hnature, -⟩ := hgrows.kept _ _ hrecord
  have hapart : defs.NamedApart owner hidden := ⟨made, front, rest, hmade, howner', hlisted, hnames⟩
  obtain ⟨made', front', rest', hmade', howner'', hlisted', hnames'⟩ := hapart.mono hheld hgrows
  exact ⟨record', made', owner, front', rest', hrecord', by rw [hnature, howner], hmade',
    by rw [hnature, hgrows.nature_eq hmade hmade', hshape], howner'',
    by rw [hkeeps made made' hmade hmade', hbody], hlisted', hnames'⟩

namespace Moment

/-- What is known while the body of a method is replaced. -/
structure Working (asked : Declaration → Prop) (start : Moment) (id : DeclId .method)
    (transformer : Transformer) (now : Moment) (context : TransplantContext) : Prop where
  sound : now.Sound
  stack : now.stack = []
  between : World.Between start.world now.world now.world
  asks : transformer.Asks asked now.world
  asked : asked (.method id)
  writable : now.decls.Writable (.method id)
  memo : now.session.resolved.get? (.method id) = some (.method context.method)
  base : ∀ record, now.defs.record? (.method context.method) = some record →
    record.body = context.base
  hidden : ∀ hidden, context.hidden = some hidden →
    start.defs.has (.method hidden) = false ∧ now.defs.Hides context.base context.method hidden
  trace : now.hidden = context.hidden.toList ++ start.hidden

variable {asked : Declaration → Prop} {start : Moment} {id : DeclId .method}
  {transformer : Transformer} {now next : Moment} {context context' : TransplantContext}
  {α β : Type}

/-- Whether what is imported may be asked for does not change. -/
theorem After.transformerAsks (h : now.After next) (hasks : transformer.Asks asked now.world) :
    transformer.Asks asked next.world := by
  have hdecls : next.world.decls = now.world.decls := h.later.decls
  cases transformer with
  | plain | redirecting => trivial
  | importing importer bases =>
      simpa only [Transformer.Asks, hdecls, h.later.types, h.later.fields, h.later.methods]
        using hasks

/-- A replacement that has made no hidden method might as well begin now. -/
theorem Working.anew (h : Working asked start id transformer now context)
    (hnone : context.hidden = none) : Working asked now id transformer now context :=
  { h with
    between := ⟨.refl _, .refl _, fun _ => rfl, fun _ => rfl, fun _ => rfl, fun _ => rfl⟩
    hidden := by simp [hnone]
    trace := by simp [hnone] }

theorem Working.after (h : Working asked start id transformer now context)
    (hafter : now.After next) (hsame : next.hidden = now.hidden) :
    Working asked start id transformer next context where
  sound := hafter.sound
  stack := hafter.stack.trans h.stack
  between := { hafter.later.between h.between with
    after := h.between.after.trans hafter.later.grows
    before := .refl _
    scope := fun _ => rfl
    types := fun _ => rfl
    fields := fun _ => rfl
    methods := fun _ => rfl }
  asks := hafter.transformerAsks h.asks
  asked := h.asked
  writable := hafter.later.decls ▸ h.writable
  memo := hafter.later.remembered _ _ h.memo
  base record hrecord := by
    obtain ⟨before, hbefore⟩ := Definitions.has_iff.mp (h.sound.remembered _ _ h.memo)
    obtain ⟨_, hrecord', hbody⟩ := hafter.bodies _ _ hbefore
    cases hrecord.symm.trans hrecord'
    rw [hbody, h.base before hbefore]
  hidden hidden hhidden := by
    obtain ⟨hnew, hhides⟩ := h.hidden hidden hhidden
    refine ⟨hnew, hhides.mono h.sound.held hafter.later.grows fun made made' hmade hmade' => ?_⟩
    obtain ⟨_, hkept, hbody⟩ := hafter.bodies _ _ hmade
    cases hmade'.symm.trans hkept
    exact hbody
  trace := hsame.trans h.trace

/-! ## Rules -/

/-- Whether a part of a transplant is a run that keeps everything in order. -/
def Advances (asked : Declaration → Prop) (start : Moment) (id : DeclId .method)
    (transformer : Transformer) (now : Moment) (context : TransplantContext)
    (task : TransplantTask α) (post : α → Option (DefId .method) → Moment → Prop) : Prop :=
  Leads asked none now (task.run context) (fun outcome next =>
    Working asked start id transformer next outcome.2 ∧ context.Onward outcome.2 ∧
      post outcome.1 outcome.2.hidden next) true

section Rules

variable {post : α → Option (DefId .method) → Moment → Prop}
  {post' : β → Option (DefId .method) → Moment → Prop}

theorem Advances.pure {value : α} (h : Working asked start id transformer now context)
    (hpost : post value context.hidden now) :
    Advances asked start id transformer now context (Pure.pure value) post :=
  Leads.pure ⟨h, .refl _, hpost⟩

theorem Advances.bind {task : TransplantTask α} {f : α → TransplantTask β}
    (h : Working asked start id transformer now context)
    (htask : Advances asked start id transformer now context task post)
    (hnext : ∀ value next context', now.After next → context.Onward context' →
      Working asked start id transformer next context' → post value context'.hidden next →
      Advances asked start id transformer next context' (f value) post') :
    Advances asked start id transformer now context (task >>= f) post' := by
  refine Leads.bind h.sound htask ?_
  rintro ⟨value, context'⟩ next hafter ⟨hworking, honward, hpost⟩
  refine Leads.mono hworking.sound (hnext value next context' hafter honward hworking hpost) ?_
  rintro ⟨value', context''⟩ last _ ⟨hworking', honward', hpost'⟩
  exact ⟨hworking', honward.trans honward', hpost'⟩

theorem Advances.mono {task : TransplantTask α} {post' : α → Option (DefId .method) → Moment → Prop}
    (h : Working asked start id transformer now context)
    (htask : Advances asked start id transformer now context task post)
    (hpost : ∀ value next context', now.After next → context.Onward context' →
      post value context'.hidden next → post' value context'.hidden next) :
    Advances asked start id transformer now context task post' :=
  Leads.mono h.sound htask fun _ _ hafter ⟨hworking, honward, h⟩ =>
    ⟨hworking, honward, hpost _ _ _ hafter honward h⟩

/-- An operation of the session comes first. -/
theorem Advances.lift_bind {task : SessionTask α} {f : α → TransplantTask β}
    {post : α → Moment → Prop} (hsound : now.Sound) (htask : Leads asked none now task post true)
    (hnext : ∀ value next, now.After next → post value next →
      Advances asked start id transformer next context (f value) post') :
    Advances asked start id transformer now context ((task : TransplantTask α) >>= f) post' := by
  have hlift : Leads asked none now ((task : TransplantTask α).run context)
      (fun outcome next => outcome.2 = context ∧ post outcome.1 next) true :=
    Leads.bind hsound htask fun _ _ _ hpost => Leads.pure ⟨rfl, hpost⟩
  refine Leads.bind hsound hlift ?_
  rintro ⟨value, _⟩ next hafter ⟨rfl, hpost⟩
  exact hnext value next hafter hpost

/-- An operation of the session that hides nothing is part of a transplant. -/
theorem Advances.lift {task : SessionTask α} {post : α → Moment → Prop}
    (h : Working asked start id transformer now context)
    (htask : Leads asked none now task (fun value next => next.hidden = now.hidden ∧ post value next)
      true) :
    Advances asked start id transformer now context (task : TransplantTask α)
      fun value hidden next => hidden = context.hidden ∧ post value next := by
  rw [← bind_pure (task : TransplantTask α)]
  refine Advances.lift_bind h.sound htask fun value next hafter hpost => ?_
  exact Advances.pure (h.after hafter hpost.1) ⟨rfl, hpost.2⟩

theorem Advances.world {f : World → TransplantTask β}
    (hnext : Advances asked start id transformer now context (f now.world) post') :
    Advances asked start id transformer now context
      ((SessionTask.world : TransplantTask World) >>= f) post' :=
  fun hclosed => hnext hclosed

theorem Advances.get {f : TransplantContext → TransplantTask β}
    (hnext : Advances asked start id transformer now context (f context) post') :
    Advances asked start id transformer now context (MonadState.get >>= f) post' :=
  hnext

theorem Advances.throw {error : Error} :
    Advances asked start id transformer now context
      (MonadExcept.throw error : TransplantTask α) post :=
  fun _ => ⟨now, rfl, List.suffix_rfl, .refl, nofun⟩

theorem Advances.ofExcept {outcome : Except Error α} {f : α → TransplantTask β}
    (hnext : ∀ value, outcome = .ok value →
      Advances asked start id transformer now context (f value) post') :
    Advances asked start id transformer now context
      ((MonadExcept.ofExcept outcome : TransplantTask α) >>= f) post' := by
  cases outcome with
  | error error => exact Advances.throw
  | ok value => exact hnext value rfl

/-- A part of a transplant done for every item of a list. The hidden method is made for an item, if
it is made at all. -/
theorem Advances.mapM {ι : Type} {f : ι → TransplantTask α}
    {R S : ι → α → Option (DefId .method) → Moment → Prop} {items : List ι}
    (hstays : ∀ item value {now next : Moment} {context context' : TransplantContext},
      now.After next → context.Onward context' →
      (R item value context.hidden now → R item value context'.hidden next) ∧
        (S item value context.hidden now → S item value context'.hidden next))
    (h : Working asked start id transformer now context)
    (hitem : ∀ item ∈ items, ∀ next context', now.After next →
      Working asked start id transformer next context' →
      Advances asked start id transformer next context' (f item) fun value hidden last =>
        R item value hidden last ∧ (hidden ≠ context'.hidden → S item value hidden last)) :
    Advances asked start id transformer now context (items.mapM f) fun values hidden next =>
      List.Forall₂ (fun item value => R item value hidden next) items values ∧
        (hidden ≠ context.hidden → ∃ item ∈ items, ∃ value, S item value hidden next) := by
  induction items generalizing now context with
  | nil => exact Advances.pure h ⟨.nil, fun hne => absurd rfl hne⟩
  | cons item items ih =>
      rw [List.mapM_cons]
      refine Advances.bind h (hitem item List.mem_cons_self now context (.refl h.sound) h) ?_
      rintro value next context' hafter - hworking ⟨hvalue, hmade⟩
      refine Advances.bind hworking (ih hworking fun other hmem last context'' hafter' hworking' =>
        hitem other (List.mem_cons_of_mem _ hmem) last context'' (hafter.trans hafter')
          hworking') ?_
      rintro values last context'' hafter' honward hworking' ⟨hvalues, hmade'⟩
      refine Advances.pure hworking'
        ⟨.cons ((hstays item value hafter' honward).1 hvalue) hvalues, fun hne => ?_⟩
      by_cases hlater : context''.hidden = context'.hidden
      · have hsome := hmade (hlater ▸ hne)
        exact ⟨item, List.mem_cons_self, value, (hstays item value hafter' honward).2 hsome⟩
      · obtain ⟨other, hmem, found⟩ := hmade' hlater
        exact ⟨other, List.mem_cons_of_mem _ hmem, found⟩

/-- A part of a transplant done for every item of a list, none of which needs the hidden method. -/
theorem Advances.mapM_apart {ι : Type} {f : ι → TransplantTask α} {R : ι → α → Moment → Prop}
    {items : List ι} (hstays : ∀ item value {now next : Moment},
      now.After next → R item value now → R item value next)
    (h : Working asked start id transformer now context)
    (hitem : ∀ item ∈ items, ∀ next context', now.After next →
      Working asked start id transformer next context' →
      Advances asked start id transformer next context' (f item) fun value hidden last =>
        hidden = context'.hidden ∧ R item value last) :
    Advances asked start id transformer now context (items.mapM f) fun values hidden next =>
      hidden = context.hidden ∧ List.Forall₂ (fun item value => R item value next) items values := by
  have hitems := Advances.mapM (R := fun item value _ next => R item value next)
    (S := fun _ _ _ _ => False) 
    (fun item value {_ _ _ _} hafter _ => ⟨hstays item value hafter, fun h => h⟩) h
    fun item hmem next context' hafter hworking =>
      Advances.mono hworking (hitem item hmem next context' hafter hworking)
        fun _ _ _ _ _ ⟨hhidden, hvalue⟩ => ⟨hvalue, fun hne => hne hhidden⟩
  refine Advances.mono h hitems ?_
  rintro values next context' - - ⟨hvalues, hmade⟩
  refine ⟨by_contra fun hne => ?_, hvalues⟩
  obtain ⟨_, _, _, hfalse⟩ := hmade hne
  exact hfalse

end Rules

end Moment

end Graft
