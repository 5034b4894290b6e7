import Graft.Proofs.Session.Orderly

/-!
# What is missing is made

In an orderly session a definition is made for a declaration exactly when nothing that was there
before fits it. The `Census` keeps the old definitions and the new ones apart: what was old and
answers a declaration is the first old one that fits, and where something was made nothing old fits.
-/

namespace Graft

namespace Shape

variable {names : TypeNames} {answers : Answers} {left right : Shape}

theorem overloads_fill_right (hfills : names.Fills names answers right.targets) :
    left.Overloads names (right.relink (.fill answers)) ↔ left.Overloads names right := by
  cases left with
  | none | field | property | event => exact Iff.rfl
  | method left =>
      cases right with
      | none | field | property | event => exact Iff.rfl
      | method right => exact Iff.of_eq (congrArg (· = true) (MethodSig.same_fill_right rfl hfills))

end Shape

namespace Moment

variable {asked : Declaration → Prop} {mode : Mode} {start : World} {source : SourceId}
  {now next : Moment} {declaration parent : Declaration} {definition holder parent' : Definition}
  {rest : InFlight}

/-- Whether a definition has the name that a declaration gives, at top level in the namespace that
it gives, and for methods as an overload with these parameters. -/
def Fits (now : Moment) (declaration : Declaration) (definition : Definition) : Prop :=
  ∃ record, now.defs.record? definition = some record ∧
    record.nature.name = (now.decls.statement declaration).name ∧
    (∀ parent, now.decls.parent? declaration = some parent → parent.kind = .module →
      record.nature.namespaceName = (now.decls.statement declaration).namespaceName) ∧
    (declaration.kind = .method → record.nature.shape.Overloads now.world.typeNames
      (now.decls.statement declaration).shape)

/-- Whether a definition fits a declaration does not change. -/
theorem Orderly.fits_iff (h : now.Orderly asked start) (hprepared : start.Prepared source asked)
    (hlater : now.Later next) (hwell : next.defs.WellFormed) (hasked : asked declaration)
    (hhas : now.defs.has definition = true) :
    next.Fits declaration definition ↔ now.Fits declaration definition := by
  obtain ⟨record, hrecord⟩ := Definitions.has_iff.mp hhas
  obtain ⟨record', hrecord', hnature, -⟩ := hlater.grows.kept _ _ hrecord
  have hdecls : next.decls = now.decls := hlater.decls
  have hknown : now.defs.Knows (now.decls.statement declaration).shape.targets := by
    rw [h.decls]
    exact (hprepared.knows_shape hasked).mono h.grows
  have hnamed := h.wellFormed.named definition record hrecord
  simp only [Record.named, Definitions.knows_append] at hnamed
  have hoverloads : record.nature.shape.Overloads next.world.typeNames
      (now.decls.statement declaration).shape ↔
        record.nature.shape.Overloads now.world.typeNames (now.decls.statement declaration).shape :=
    ⟨Shape.overloads_congr (fun _ => (hlater.agree h.wellFormed hwell hnamed.1.1).symm)
        fun _ => (hlater.agree h.wellFormed hwell hknown).symm,
      Shape.overloads_congr (fun _ => hlater.agree h.wellFormed hwell hnamed.1.1)
        fun _ => hlater.agree h.wellFormed hwell hknown⟩
  simp only [Fits, hrecord, hrecord', Option.some.injEq, exists_eq_left', hnature, hdecls,
    hoverloads]

/-- To fit a declaration is to match it, where its signature can be filled in. -/
theorem Orderly.fits_iff_matches (h : now.Orderly asked start)
    (hprepared : start.Prepared source asked) (hasked : asked declaration)
    (hsettles : declaration.kind = .method →
      now.answer.SettlesAll (now.decls.statement declaration).shape.targets) :
    now.Fits declaration definition ↔ now.Matches declaration definition := by
  refine exists_congr fun record => and_congr_right fun hrecord => and_congr_right fun _ =>
    and_congr_right fun _ => forall_congr' fun hmethod => ?_
  have hsettled := hsettles hmethod
  have hfills : now.world.typeNames.Fills now.world.typeNames now.answer
      (now.decls.statement declaration).shape.targets := by
    rw [h.decls] at hsettled ⊢
    refine (h.fills hprepared hsettled (hprepared.knows_shape hasked)).now ?_
    simp only [World.typeNames, show now.world.decls = start.decls from h.decls]
  simp only [Holds, hrecord, Option.some.injEq, exists_eq_left']
  exact ((and_iff_right hsettled).trans (Shape.overloads_fill_right hfills)).symm

/-! ## Old definitions and new ones -/

variable {old old' : Definition → Prop}

/-- Whether a definition is the first one in its list that fits a declaration, of those that are
old. -/
def FirstOld (now : Moment) (old : Definition → Prop) (declaration : Declaration)
    (definition : Definition) : Prop :=
  ∀ parent holder, now.decls.parent? declaration = some parent →
    now.answer parent = some holder → ∃ front rest,
      now.defs.members holder declaration.kind = front ++ definition :: rest ∧
        ∀ other ∈ front, old other → ¬ now.Fits declaration other

/-- Whether nothing old fits a declaration, where it says. -/
def NoneOld (now : Moment) (old : Definition → Prop) (declaration : Declaration) : Prop :=
  ∀ parent holder, now.decls.parent? declaration = some parent →
    now.answer parent = some holder →
      ∀ other ∈ now.defs.members holder declaration.kind, old other → ¬ now.Fits declaration other

/-- What is old, and why everything else is new: it was made where nothing old fitted, or hidden. -/
structure Census (old : Definition → Prop) (now : Moment) : Prop where
  there : ∀ definition, old definition → now.defs.has definition = true
  new : ∀ definition, now.defs.has definition = true → old definition ∨
    (∃ declaration, (declaration, definition) ∈ now.made) ∨
      ∃ hidden ∈ now.hidden, definition = .method hidden
  inside : ∀ holder kind definition, definition ∈ now.defs.members holder kind →
    old definition → old holder
  found : ∀ declaration definition, now.answer declaration = some definition →
    old definition →
      (now.decls.terms declaration).policy ≠ .failIfPresent ∧
        now.FirstOld old declaration definition
  missing : ∀ declaration definition, (declaration, definition) ∈ now.made →
    ¬ old definition ∧ (now.decls.terms declaration).policy ≠ .failIfMissing ∧
      now.NoneOld old declaration

/-- What growth does to lists, seen from the old definitions: what they get is new. -/
def KeepsOld (old : Definition → Prop) (defs defs' : Definitions) : Prop :=
  ∀ holder kind, defs.has holder = true → ∃ news,
    defs'.members holder kind = defs.members holder kind ++ news ∧ ∀ other ∈ news, ¬ old other

/-- What is inside a declaration that has an answer is inside one that has an answer. -/
theorem Orderly.answer_parent (h : now.Orderly asked start)
    (hanswer : now.answer declaration = some definition)
    (hparent : now.decls.parent? declaration = some parent) :
    ∃ holder, now.answer parent = some holder := by
  cases h.placed _ _ hanswer with
  | module => cases hparent
  | member hparent' hholder =>
      cases hparent.symm.trans hparent'
      exact ⟨_, hholder⟩

section Later

variable (h : now.Orderly asked start) (hprepared : start.Prepared source asked)
  (hlater : now.Later next) (hwell : next.defs.WellFormed)
  (hanswers : now.answer.Extends next.answer)
  (hold : ∀ definition, now.defs.has definition = true → (old' definition ↔ old definition))
  (hkeeps : KeepsOld old' now.defs next.defs) (hasked : asked declaration)
  (hknown : ∀ parent, now.decls.parent? declaration = some parent →
    ∃ holder, now.answer parent = some holder)

include h hprepared hlater hwell hanswers hold hkeeps hasked hknown

/-- The list that a declaration belongs into gets nothing old, and what is old in it fits as it did
before. -/
theorem Orderly.list_later (hparent : next.decls.parent? declaration = some parent)
    (hholder : next.answer parent = some holder) :
    now.decls.parent? declaration = some parent ∧ now.answer parent = some holder ∧
      (∃ news, next.defs.members holder declaration.kind =
        now.defs.members holder declaration.kind ++ news ∧ ∀ other ∈ news, ¬ old' other) ∧
      ∀ other ∈ now.defs.members holder declaration.kind,
        (old' other ↔ old other) ∧ (next.Fits declaration other ↔ now.Fits declaration other) := by
  rw [hlater.decls] at hparent
  obtain ⟨holder', hholder'⟩ := hknown parent hparent
  cases hholder.symm.trans (hanswers _ _ hholder')
  refine ⟨hparent, hholder', hkeeps holder _ (h.sound.has_answer hholder'), fun other hmem => ?_⟩
  have hhas := h.sound.held _ _ _ hmem
  exact ⟨hold other hhas, h.fits_iff hprepared hlater hwell hasked hhas⟩

/-- What was the first old definition to fit is it still. -/
theorem Orderly.firstOld_later (hfirst : now.FirstOld old declaration definition) :
    next.FirstOld old' declaration definition := by
  intro parent holder hparent hholder
  obtain ⟨hparent, hholder, ⟨news, hnews, -⟩, hsame⟩ :=
    h.list_later hprepared hlater hwell hanswers hold hkeeps hasked hknown hparent hholder
  obtain ⟨front, rest, hmembers, hfront⟩ := hfirst parent holder hparent hholder
  refine ⟨front, rest ++ news, by simp [hnews, hmembers], fun other hmem hold' hfits => ?_⟩
  obtain ⟨hiff, hiff'⟩ := hsame other (hmembers ▸ List.mem_append_left _ hmem)
  exact hfront other hmem (hiff.mp hold') (hiff'.mp hfits)

/-- Where nothing old fitted nothing old fits. -/
theorem Orderly.noneOld_later (hnone : now.NoneOld old declaration) :
    next.NoneOld old' declaration := by
  intro parent holder hparent hholder other hmem hold' hfits
  obtain ⟨hparent, hholder, ⟨news, hnews, hnew⟩, hsame⟩ :=
    h.list_later hprepared hlater hwell hanswers hold hkeeps hasked hknown hparent hholder
  rw [hnews] at hmem
  obtain hmem | hmem := List.mem_append.mp hmem
  · obtain ⟨hiff, hiff'⟩ := hsame other hmem
    exact hnone parent holder hparent hholder other hmem (hiff.mp hold') (hiff'.mp hfits)
  · exact hnew other hmem hold'

omit hasked hknown

/-- What keeps a census: growth that leaves the old definitions alone, and accounts for what is
new. -/
theorem Census.onward (hcensus : now.Census old)
    (hthere : ∀ definition, old' definition → next.defs.has definition = true)
    (hnew : ∀ definition, next.defs.has definition = true → now.defs.has definition = true ∨
      old' definition ∨ (∃ declaration, (declaration, definition) ∈ next.made) ∨
        ∃ hidden ∈ next.hidden, definition = .method hidden)
    (hmade : now.made ⊆ next.made) (hhidden : now.hidden ⊆ next.hidden)
    (hinside : ∀ holder kind definition, definition ∈ next.defs.members holder kind →
      old' definition → now.defs.has holder = false → old' holder)
    (hfound : ∀ declaration definition, next.answer declaration = some definition →
      old' definition → now.answer declaration = some definition ∨
        (next.decls.terms declaration).policy ≠ .failIfPresent ∧
          next.FirstOld old' declaration definition)
    (hmissing : ∀ declaration definition, (declaration, definition) ∈ next.made →
      (declaration, definition) ∈ now.made ∨
        ¬ old' definition ∧ (next.decls.terms declaration).policy ≠ .failIfMissing ∧
          next.NoneOld old' declaration) :
    next.Census old' where
  there := hthere
  new definition hhas := by
    obtain hnow | hnext := hnew definition hhas
    · obtain hold' | ⟨declaration, hmem⟩ | ⟨hidden, hmem, rfl⟩ := hcensus.new definition hnow
      · exact .inl ((hold definition hnow).mpr hold')
      · exact .inr (.inl ⟨declaration, hmade hmem⟩)
      · exact .inr (.inr ⟨hidden, hhidden hmem, rfl⟩)
    · exact hnext
  inside holder kind definition hmem hold' := by
    cases hhas : now.defs.has holder with
    | false => exact hinside holder kind definition hmem hold' hhas
    | true =>
        obtain ⟨news, hnews, hnew⟩ := hkeeps holder kind hhas
        rw [hnews] at hmem
        -- Lists grow at the end and by what is not old.
        obtain hmem | hmem := List.mem_append.mp hmem
        · refine (hold holder hhas).mpr (hcensus.inside holder kind definition hmem ?_)
          exact (hold definition (h.sound.held _ _ _ hmem)).mp hold'
        · exact absurd hold' (hnew definition hmem)
  found declaration definition hanswer' hold' := by
    obtain hanswer | hfound := hfound declaration definition hanswer' hold'
    · obtain ⟨hpolicy, hfirst⟩ := hcensus.found declaration definition hanswer
        ((hold definition (h.sound.has_answer hanswer)).mp hold')
      exact ⟨hlater.decls ▸ hpolicy,
        h.firstOld_later hprepared hlater hwell hanswers hold hkeeps (h.asked _ _ hanswer)
          (fun _ => h.answer_parent hanswer) hfirst⟩
    · exact hfound
  missing declaration definition hmem := by
    obtain hmem | hmissing := hmissing declaration definition hmem
    · obtain ⟨hnew, hpolicy, hnone⟩ := hcensus.missing declaration definition hmem
      have hanswer := h.sound.made _ hmem
      exact ⟨mt (hold definition (h.sound.has_answer hanswer)).mp hnew, hlater.decls ▸ hpolicy,
        h.noneOld_later hprepared hlater hwell hanswers hold hkeeps (h.asked _ _ hanswer)
          (fun _ => h.answer_parent hanswer) hnone⟩
    · exact hmissing

end Later

/-! ## Every step -/

/-- What is found is the first of all that fit, and so of those that are old. -/
theorem Orderly.firstOld_found (h : now.Orderly asked start)
    (hprepared : start.Prepared source asked) (hstate : next.state = now.state)
    (hanswers : now.answer.Extends next.answer) (hasked : asked declaration)
    (hfound : now.Found declaration definition) : next.FirstOld old declaration definition := by
  intro parent holder hparent hholder
  have hworld : next.world = now.world := congrArg (·.world) hstate
  have hdefs : next.defs = now.defs := congrArg (·.defs) hworld
  have hdecls : next.decls = now.decls := congrArg (·.decls) hworld
  cases hfound with
  | module => cases hparent
  | @member _ parent' _ holder' front rest hparent' hholder' hkind hmembers hmatches hfirst =>
      rw [hdecls] at hparent
      cases hparent.symm.trans hparent'
      cases hholder.symm.trans (hanswers _ _ hholder')
      refine ⟨front, rest, hdefs ▸ hmembers, fun other hmem _ hfits => hfirst other hmem ?_⟩
      obtain ⟨_, _, _, _, hoverload⟩ := hmatches
      refine (h.fits_iff_matches hprepared hasked fun hmethod => ?_).mp ?_
      · obtain ⟨_, _, hsettles, -⟩ := hoverload hmethod
        exact hsettles
      · simpa only [Fits, hdefs, hdecls, hworld] using hfits

/-- Where something is missing nothing old fits. -/
theorem Orderly.noneOld_missing (h : now.Orderly asked start)
    (hprepared : start.Prepared source asked) (hasked : asked declaration)
    (hsettles : now.answer.SettlesAll (now.decls.statement declaration).shape.targets)
    (hmissing : now.Missing declaration) : now.NoneOld old declaration := by
  intro parent holder hparent hholder other hmem _ hfits
  cases hmissing with
  | module => cases hparent
  | member hparent' hholder' hnone =>
      cases hparent.symm.trans hparent'
      cases hholder.symm.trans hholder'
      exact hnone other hmem ((h.fits_iff_matches hprepared hasked fun _ => hsettles).mp hfits)

section Lists

variable {defs defs' : Definitions} {made : Definition} {record : Record}

theorem keepsOld_of_eq (h : ∀ holder kind, defs'.members holder kind = defs.members holder kind) :
    KeepsOld old defs defs' :=
  fun holder kind _ => ⟨[], by simp [h], by simp⟩

theorem keepsOld_of_adds (h : defs.Adds defs' parent' made record)
    (hempty : record.members = fun _ => []) (hnew : ¬ old made) : KeepsOld old defs defs' := by
  intro holder kind hhas
  by_cases hlist : holder = parent' ∧ kind = made.kind
  · obtain ⟨rfl, rfl⟩ := hlist
    exact ⟨[made], h.members_parent hhas, by simp [hnew]⟩
  · exact ⟨[], by simp [h.members_other hempty hlist], by simp⟩

theorem keepsOld_of_extends (h : defs.Extends defs') : KeepsOld old defs defs' := by
  intro holder kind hhas
  refine ⟨[], ?_, by simp⟩
  rw [Definitions.members_eq, Definitions.members_eq, h.record? holder hhas, List.append_nil]

end Lists

/-- What is made next is not old. -/
theorem Census.not_old {made : Definition} (hcensus : now.Census old)
    (hfresh : made.index = now.defs.next made.kind) : ¬ old made := by
  intro hold
  obtain ⟨record, hrecord⟩ := Definitions.has_iff.mp (hcensus.there made hold)
  simp [Definitions.record?_eq_none_of_fresh hfresh] at hrecord

section Step

variable (h : now.Orderly asked start) (hprepared : start.Prepared source asked)
  (hlater : now.Later next) (hcensus : now.Census old)

include h hprepared hlater hcensus

/-- Where there are the same definitions, lists and answers, the census is the same. -/
theorem Census.same (hwell : next.defs.WellFormed)
    (hhas : ∀ definition, next.defs.has definition = now.defs.has definition)
    (hlists : ∀ holder kind, next.defs.members holder kind = now.defs.members holder kind)
    (hanswer : next.answer = now.answer) (hmade : next.made = now.made)
    (hhidden : next.hidden = now.hidden) : next.Census old :=
  hcensus.onward h hprepared hlater hwell (fun _ _ hknown => hanswer ▸ hknown)
    (fun _ _ => Iff.rfl) (keepsOld_of_eq hlists)
    (fun definition hold => (hhas definition).trans (hcensus.there definition hold))
    (fun definition hdefinition => .inl ((hhas definition).symm.trans hdefinition))
    (fun _ hmem => hmade ▸ hmem) (fun _ hmem => hhidden ▸ hmem)
    (fun holder kind definition hmem _ hnone => by
      simp [Definitions.has_of_mem_members (hlists holder kind ▸ hmem)] at hnone)
    (fun _ _ hknown _ => .inl (hanswer ▸ hknown))
    fun _ _ hmem => .inl (hmade ▸ hmem)

/-- What is loaded is old, and nothing else changes. -/
theorem Census.load (hwell : next.defs.WellFormed) (hextends : now.defs.Extends next.defs)
    (hanswer : next.answer = now.answer) (hmade : next.made = now.made)
    (hhidden : next.hidden = now.hidden) :
    next.Census fun definition =>
      old definition ∨ next.defs.has definition = true ∧ now.defs.has definition = false := by
  refine hcensus.onward h hprepared hlater hwell (fun _ _ hknown => hanswer ▸ hknown)
    (fun definition hhas => by simp [hhas]) (keepsOld_of_extends hextends) ?_ ?_
    (fun _ hmem => hmade ▸ hmem) (fun _ hmem => hhidden ▸ hmem) ?_
    (fun _ _ hknown _ => .inl (hanswer ▸ hknown)) fun _ _ hmem => .inl (hmade ▸ hmem)
  · rintro definition (hold | ⟨hhas, -⟩)
    · exact hextends.grows.has (hcensus.there definition hold)
    · exact hhas
  · intro definition hhas
    cases hnow : now.defs.has definition with
    | true => exact .inl rfl
    | false => exact .inr (.inl (.inr ⟨hhas, rfl⟩))
  · intro holder kind definition hmem _ hnone
    exact .inr ⟨Definitions.has_of_mem_members hmem, hnone⟩

/-- What is added to a list is new; it may be the answer for a declaration that nothing old fits. -/
theorem Census.adds {made : Definition} {record : Record} (hwell : next.defs.WellFormed)
    (hanswers : now.answer.Extends next.answer)
    (hadds : now.defs.Adds next.defs holder made record) (hempty : record.members = fun _ => [])
    (hmade : now.made ⊆ next.made) (hhidden : now.hidden ⊆ next.hidden)
    (hnew : (∃ declaration, (declaration, made) ∈ next.made) ∨
      ∃ hidden ∈ next.hidden, made = .method hidden)
    (hfound : ∀ declaration definition, next.answer declaration = some definition →
      now.answer declaration = some definition ∨ definition = made)
    (hmissing : ∀ declaration definition, (declaration, definition) ∈ next.made →
      (declaration, definition) ∈ now.made ∨ definition = made ∧
        (next.decls.terms declaration).policy ≠ .failIfMissing ∧ next.NoneOld old declaration) :
    next.Census old := by
  have hmadeNew := hcensus.not_old hadds.fresh
  refine hcensus.onward h hprepared hlater hwell hanswers (fun _ _ => Iff.rfl)
    (keepsOld_of_adds hadds hempty hmadeNew) ?_ ?_ hmade hhidden ?_ ?_ ?_
  · exact fun definition hold => hadds.has_iff.mpr (.inl (hcensus.there definition hold))
  · intro definition hhas
    obtain hnow | rfl := hadds.has_iff.mp hhas
    · exact .inl hnow
    · exact .inr (.inr hnew)
  · intro other kind definition hmem _ hnone
    obtain hmem | ⟨rfl, -, -, hholder⟩ := (hadds.mem_members hempty).mp hmem
    · simp [Definitions.has_of_mem_members hmem] at hnone
    · simp [hholder] at hnone
  · intro declaration definition hknown hold
    obtain hnow | rfl := hfound declaration definition hknown
    · exact .inl hnow
    · exact absurd hold hmadeNew
  · intro declaration definition hmem
    obtain hnow | ⟨rfl, hpolicy, hnone⟩ := hmissing declaration definition hmem
    · exact .inl hnow
    · exact .inr ⟨hmadeNew, hpolicy, hnone⟩

end Step

end Moment

/-- Whether a source hands out a definition that was not there. -/
def World.HandsOut (world : World) (source : SourceId) (definition : Definition) : Prop :=
  ∃ name module before after, before.sources = world.sources ∧
    (Task.load source name).on before = (.ok module, after) ∧
    before.defs.has definition = false ∧ after.defs.has definition = true

/-- Whether a source has handed out a module under a name. -/
def World.Offers (world : World) (source : SourceId) (name : String) (module : DefId .module) :
    Prop :=
  ∃ before after, before.sources = world.sources ∧
    (Task.load source name).on before = (.ok module, after)

/-- Whether a source has answered that it does not have a module. -/
def World.Lacks (world : World) (source : SourceId) (name : String) : Prop :=
  ∃ before other, before.sources = world.sources ∧
    ((Task.load source name).on before).1 = .error (.moduleNotFound other)

/-- Whether some definitions are old: all that the world has, and what else a source hands out. -/
structure World.Past (world : World) (source : SourceId) (old : Definition → Prop) : Prop where
  start : ∀ definition, world.defs.has definition = true → old definition
  handed : ∀ definition, old definition →
    world.defs.has definition = true ∨ world.HandsOut source definition

/-- A source in memory hands out nothing but what the world has. -/
theorem World.Past.of_memory {world : World} {source : SourceId} {old : Definition → Prop}
    {modules : Dictionary String (DefId .module)} {saves : Dictionary String Nat}
    (h : world.Past source old) (hsource : world.source source = .memory modules saves)
    (definition : Definition) : old definition ↔ world.defs.has definition = true := by
  refine ⟨fun hold => (h.handed definition hold).resolve_right ?_, h.start definition⟩
  rintro ⟨name, module, before, after, hsources, hload, hnone, hhas⟩
  have hbefore : before.source source = .memory modules saves := by
    rw [← hsource, World.source, World.source, hsources]
  rw [Task.load_memory hbefore] at hload
  have hsame : before = after := congrArg Prod.snd hload
  simp [hsame, hhas] at hnone

namespace Moment

variable {asked : Declaration → Prop} {mode : Mode} {start : World} {source : SourceId}
  {now next : Moment} {old : Definition → Prop}

/-- While nothing is given up or hidden, every step keeps a census, except that what is loaded becomes
old. -/
theorem Step.census_or_load (hstep : Step asked mode now next) (hfails : mode.fails = false)
    (hhides : mode.hides = false) (hprepared : start.Prepared source asked)
    (h : now.Orderly asked start) (hcensus : now.Census old) : next.Census old ∨
      (∃ id module, asked (.module id) ∧
        now.session.modules.get? (now.decls.module id).name = none ∧
        (Task.load now.session.source (now.decls.module id).name).on now.world =
          (.ok module, next.world)) ∧
        next.Census fun definition =>
          old definition ∨ next.defs.has definition = true ∧ now.defs.has definition = false := by
  have hlater := hstep.later h.sound
  have hanswers := hstep.answers hfails h.sound
  have hwell := (hstep.orderly hfails hprepared h).wellFormed
  cases hstep with
  | @quiet world hits hquiet =>
      have hdefs : world.defs = now.defs := hquiet.defs
      exact .inl (hcensus.same h hprepared hlater hwell (by simp [hdefs]) (by simp [hdefs])
        rfl rfl rfl)
  | @load id rest name module world hstack hasked hname hnone hload =>
      obtain ⟨hextends, -⟩ := Task.load_ok h.sound.source h.sound.held hload
      subst hname
      -- The one step after which something is old that was not there before.
      exact .inr ⟨⟨id, module, hasked, hnone, hload⟩,
        hcensus.load h hprepared hlater hwell hextends rfl rfl rfl⟩
  | enter hasked hmemo hstack hlets =>
      exact .inl (hcensus.same h hprepared hlater hwell (fun _ => rfl) (fun _ _ => rfl)
        (answer_enter hstack) rfl rfl)
  | @makeModule id rest name hstack hasked hwritable hname hpolicy hnone hmissing =>
      have hmakes := Definitions.makeModule_makes now.defs { name }
      have hempty := Definitions.members_new_module name
      have hmadeNew := hcensus.not_old hmakes.fresh
      refine .inl (hcensus.onward h hprepared hlater hwell hanswers (fun _ _ => Iff.rfl)
        (keepsOld_of_eq (hmakes.members_eq hempty)) ?_ ?_ (List.subset_cons_self _ _)
        (List.Subset.refl _) ?_ ?_ ?_)
      · exact fun definition hold => hlater.grows.has (hcensus.there definition hold)
      · intro definition hhas
        obtain ⟨record, hrecord⟩ := Definitions.has_iff.mp hhas
        replace hrecord : (now.defs.makeModule { name }).2.record? definition = some record := hrecord
        rw [hmakes.record?] at hrecord
        split at hrecord
        · rename_i heq
          exact .inr (.inr (.inl ⟨.module id, heq ▸ List.mem_cons_self⟩))
        · exact .inl (Definitions.has_iff.mpr ⟨record, hrecord⟩)
      · intro holder kind definition hmem _ hholder
        replace hmem : definition ∈ (now.defs.makeModule { name }).2.members holder kind := hmem
        rw [hmakes.members_eq hempty] at hmem
        simp [Definitions.has_of_mem_members hmem] at hholder
      · intro other found hknown hold
        replace hknown := (h.sound.answer_locate hstack other).symm.trans hknown
        split at hknown
        · cases hknown
          exact absurd hold hmadeNew
        · exact .inl hknown
      · intro other found hmem
        obtain heq | hmem := List.mem_cons.mp hmem
        · cases heq
          exact .inr ⟨hmadeNew, hpolicy, nofun⟩
        · exact .inl hmem
  | @create declaration parent rest holder made record defs hstack hasked hwritable hpolicy hmissing
      hparent hholder hkind hrenders hadds =>
      refine .inl (hcensus.adds h hprepared hlater hwell hanswers hadds hrenders.members
        (List.subset_cons_self _ _) (List.Subset.refl _) (.inl ⟨declaration, List.mem_cons_self⟩)
        ?_ ?_)
      · intro other found hknown
        replace hknown := (h.sound.answer_locate hstack other).symm.trans hknown
        split at hknown
        · exact .inr (Option.some.inj hknown).symm
        · exact .inl hknown
      · intro other found hmem
        obtain heq | hmem := List.mem_cons.mp hmem
        · cases heq
          -- The search has just come back with nothing old, and what is added is not old.
          have hnone : now.NoneOld old declaration :=
            h.noneOld_missing hprepared hasked hrenders.settled hmissing
          refine .inr ⟨rfl, hpolicy, h.noneOld_later hprepared hlater hwell hanswers
            (fun _ _ => Iff.rfl) ?_ hasked (fun other hother => ?_) hnone⟩
          · exact keepsOld_of_adds hadds hrenders.members (hcensus.not_old hadds.fresh)
          · cases hparent.symm.trans hother
            exact ⟨holder, hholder⟩
        · exact .inl hmem
  | @locate declaration definition rest hstack hasked hpolicy hfound =>
      refine .inl (hcensus.onward h hprepared hlater hwell hanswers (fun _ _ => Iff.rfl)
        (keepsOld_of_eq fun _ _ => rfl) hcensus.there (fun _ hhas => .inl hhas)
        (List.Subset.refl _) (List.Subset.refl _) ?_ ?_ fun _ _ hmem => .inl hmem)
      · intro holder kind definition hmem _ hholder
        have hhas : now.defs.has holder = true := Definitions.has_of_mem_members hmem
        simp [hhas] at hholder
      · intro other found hknown hold
        replace hknown := (h.sound.answer_locate hstack other).symm.trans hknown
        split at hknown
        · cases hknown
          rename_i heq
          subst heq
          exact .inr ⟨hpolicy, h.firstOld_found hprepared rfl hanswers hasked hfound⟩
        · exact .inl hknown
  | confirm =>
      exact .inl (hcensus.same h hprepared hlater hwell (fun _ => rfl) (fun _ _ => rfl) rfl
        rfl rfl)
  | amend hstack hasked hwritable hstated hchanges =>
      exact .inl (hcensus.same h hprepared hlater hwell hchanges.has_eq
        (hchanges.members_eq fun _ => rfl) rfl rfl rfl)
  | remember hstack hconfirmed =>
      exact .inl (hcensus.same h hprepared hlater hwell (fun _ => rfl) (fun _ _ => rfl)
        (h.sound.answer_remember hstack) rfl rfl)
  | abandon hmode => simp [hfails] at hmode
  | hide hmode => simp [hhides] at hmode
  | graft hgrafts hasked hwritable hmemo hchanges =>
      exact .inl (hcensus.same h hprepared hlater hwell hchanges.has_eq
        (hchanges.members_eq fun _ => rfl) rfl rfl rfl)

/-- While nothing is given up or hidden, every step keeps a census; loading a module adds to what is
old. -/
theorem Step.census (hstep : Step asked mode now next) (hfails : mode.fails = false)
    (hhides : mode.hides = false) (hprepared : start.Prepared source asked)
    (h : now.Orderly asked start) (hsource : now.session.source = source)
    (hsources : now.world.sources = start.sources) (hpast : start.Past source old)
    (hcensus : now.Census old) : ∃ old', start.Past source old' ∧ next.Census old' := by
  obtain hcensus | ⟨⟨id, module, -, -, hload⟩, hcensus⟩ :=
    hstep.census_or_load hfails hhides hprepared h hcensus
  · exact ⟨old, hpast, hcensus⟩
  · refine ⟨_, ⟨fun definition hhas => .inl (hpast.start definition hhas), ?_⟩, hcensus⟩
    rintro definition (hold | ⟨hhas, hnew⟩)
    · exact hpast.handed definition hold
    · exact .inr ⟨_, module, now.world, next.world, hsources, hsource ▸ hload, hnew, hhas⟩

theorem Run.census (hrun : Run asked {} now next) (hprepared : start.Prepared source asked)
    (h : now.Orderly asked start) (hsource : now.session.source = source)
    (hsources : now.world.sources = start.sources) (hpast : start.Past source old)
    (hcensus : now.Census old) : ∃ old', start.Past source old' ∧ next.Census old' := by
  suffices next.Orderly asked start ∧ now.Later next ∧
      ∃ old', start.Past source old' ∧ next.Census old' from this.2.2
  refine hrun.keeps (P := fun next => next.Orderly asked start ∧ now.Later next ∧
    ∃ old', start.Past source old' ∧ next.Census old') h.sound ?_
    ⟨h, .refl now, old, hpast, hcensus⟩
  rintro middle next hstep hsound ⟨horderly, hlater, old', hpast', hcensus'⟩
  exact ⟨hstep.orderly rfl hprepared horderly, hlater.trans (hstep.later hsound),
    hstep.census rfl rfl hprepared horderly (hlater.source.trans hsource)
      (hlater.sources.trans hsources) hpast' hcensus'⟩

/-- Where the modules of a session come from: its source handed them out, or it did not have them
and they were made. -/
structure Sourced (start : World) (source : SourceId) (now : Moment) : Prop where
  offered : ∀ name module, now.session.modules.get? name = some module →
    start.Offers source name module ∨ ∃ id, (.module id, .module module) ∈ now.made
  lacked : ∀ id definition, (.module id, definition) ∈ now.made →
    start.Lacks source (now.decls.module id).name

theorem Step.sourced (hstep : Step asked mode now next) (hfails : mode.fails = false)
    (hsound : now.Sound) (hsource : now.session.source = source)
    (hsources : now.world.sources = start.sources) (h : now.Sourced start source) :
    next.Sourced start source := by
  have hdecls : next.decls = now.decls := (hstep.later hsound).decls
  have hsame (hmodules : next.session.modules = now.session.modules) (hmade : next.made = now.made) :
      next.Sourced start source := by
    constructor
    · rw [hmodules, hmade]
      exact h.offered
    · rw [hmade, hdecls]
      exact h.lacked
  cases hstep with
  | quiet | enter | locate | confirm | amend | remember | hide | graft => exact hsame rfl rfl
  | abandon hmode => simp [hfails] at hmode
  | @load id rest name module world hstack hasked hname hnone hload =>
      refine ⟨fun other found hfound => ?_, hdecls ▸ h.lacked⟩
      obtain ⟨rfl, rfl⟩ | hfound := Dictionary.of_get?_insert hfound
      · exact .inl ⟨now.world, world, hsources, hsource ▸ hload⟩
      · exact h.offered other found hfound
  | @makeModule id rest name hstack hasked hwritable hname hpolicy hnone hmissing =>
      refine ⟨fun other found hfound => ?_, fun other definition hmem => ?_⟩
      · obtain ⟨-, rfl⟩ | hfound := Dictionary.of_get?_insert hfound
        · exact .inr ⟨id, List.mem_cons_self⟩
        · exact (h.offered other found hfound).imp_right fun ⟨id, hmem⟩ =>
            ⟨id, List.mem_cons_of_mem _ hmem⟩
      · rw [hdecls]
        obtain heq | hmem := List.mem_cons.mp hmem
        · cases heq
          -- A module is made only after its source came back without it.
          cases hmissing with
          | module hname' _ hload =>
              exact ⟨now.world, _, hsources, by rw [hname', ← hsource]; exact hload⟩
          | member hparent => cases hparent
        · exact h.lacked other definition hmem
  | @create declaration parent rest holder made record defs hstack hasked hwritable hpolicy hmissing
      hparent =>
      refine ⟨fun other found hfound => ?_, fun other definition hmem => ?_⟩
      · exact (h.offered other found hfound).imp_right fun ⟨id, hmem⟩ =>
          ⟨id, List.mem_cons_of_mem _ hmem⟩
      · rw [hdecls]
        obtain heq | hmem := List.mem_cons.mp hmem
        · cases heq
          cases hparent
        · exact h.lacked other definition hmem

theorem Run.sourced (hrun : Run asked mode now next) (hfails : mode.fails = false)
    (hsound : now.Sound) (hsource : now.session.source = source)
    (hsources : now.world.sources = start.sources) (h : now.Sourced start source) :
    next.Sourced start source := by
  suffices now.Later next ∧ next.Sourced start source from this.2
  refine hrun.keeps (P := fun next => now.Later next ∧ next.Sourced start source) hsound ?_
    ⟨.refl now, h⟩
  rintro middle next hstep hsound ⟨hlater, h⟩
  exact ⟨hlater.trans (hstep.later hsound), hstep.sourced hfails hsound (hlater.source.trans hsource)
    (hlater.sources.trans hsources) h⟩

end Moment

end Graft
