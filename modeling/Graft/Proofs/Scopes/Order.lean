import Graft.Proofs.Pairing.Circles
import Graft.Proofs.Scopes.Faulting
import Mathlib.Data.List.Nodup

/-!
# The order of modules and types

Modules and types can be resolved in any order in a fresh session (`resolveAll_reordered`). If it
succeeds in one order, it does in every other one, and what comes out is the same up to the identities
of what was made, the order in which it is listed, and tokens (`SessionState.Corresponds`); unless a
nested type is asked for before its declaring type, which depends on it (`nested_before_declaring`).
This takes a graph in which every definition is listed in one place only (`reordered_fails_shared`),
and, if modules are decoded from streams, one module (`reordered_fails_streamed`).
-/

namespace Graft

/-- Whether two states that have come out of the same one by resolving modules and types differ in
nothing but the identities of what was made since, the order in which it is listed, and the tokens
that it was given. -/
structure SessionState.Corresponds (start : SessionState) (twin : Definition → Definition)
    (left right : SessionState) : Prop where
  kept : ∀ definition, start.world.defs.Issued definition → twin definition = definition
  kind : ∀ definition, left.world.defs.has definition = true →
    (twin definition).kind = definition.kind
  injective : ∀ definition other, left.world.defs.has definition = true →
    left.world.defs.has other = true → twin definition = twin other → definition = other
  onto : ∀ definition, right.world.defs.has definition = true ↔
    ∃ other, left.world.defs.has other = true ∧ twin other = definition
  resolved : ∀ declaration,
    right.session.resolved.get? declaration = (left.session.resolved.get? declaration).map twin
  records : ∀ definition record, left.world.defs.record? definition = some record →
    ∃ record', right.world.defs.record? (twin definition) = some record' ∧
      record'.nature = { record.nature.retarget twin with token := record'.nature.token } ∧
      record'.details = record.details.retarget twin ∧ record'.body = record.body
  tokens : ∀ definition record record', start.world.defs.has definition = true →
    left.world.defs.record? definition = some record →
    right.world.defs.record? definition = some record' → record'.nature.token = record.nature.token
  members : ∀ holder kind, left.world.defs.has holder = true → ∃ added added',
    left.world.defs.members holder kind = start.world.defs.members holder kind ++ added ∧
      right.world.defs.members (twin holder) kind =
        start.world.defs.members holder kind ++ added' ∧ added'.Perm (added.map twin)
  slots : right.world.slots = left.world.slots
  decls : right.world.decls = left.world.decls

namespace Moment

variable {world : World} {source : SourceId} {names : List String} {asked : Declaration → Prop}
  {left right now : Moment} {declaration : Declaration} {definition holder found : Definition}

section Concluded

variable (hscoping : world.Scoping source names asked)
  (hleft : Concluded world source names asked left)
  (hright : Concluded world source names asked right)

include hleft hright

/-- What exists in the end has a twin. -/
theorem Concluded.shared (hhas : left.defs.has definition = true) :
    Shared (world.opened source names) left right definition := by
  obtain hold | ⟨declaration, hmade⟩ | ⟨hidden, hmem, -⟩ :=
    hleft.underway.census.new definition hhas
  · exact .inl (Definitions.issued_of_has hold)
  · have hanswer := hleft.underway.orderly.sound.made _ hmade
    obtain ⟨found, hanswer'⟩ := hright.exists_answer (hleft.underway.orderly.asked _ _ hanswer)
    exact .inr ⟨declaration, found, hanswer, hanswer'⟩
  · simp [hleft.underway.hidden] at hmem

include hscoping

/-- What has been resolved in two sessions is parallel. -/
theorem Concluded.parallel : Parallel (world.opened source names) left right :=
  hleft.underway.parallel hscoping hright.underway

/-- What was made for a declaration on the one side corresponds to what was made for it on the other.
-/
theorem Concluded.made_twin (hmade : (declaration, definition) ∈ left.made) :
    (declaration, left.twin right definition) ∈ right.made := by
  have hanswer := hleft.underway.orderly.sound.made _ hmade
  obtain ⟨found, hanswer'⟩ := hright.exists_answer (hleft.underway.orderly.asked _ _ hanswer)
  rw [(hleft.parallel hscoping hright).twin_of_made hmade hanswer']
  exact hleft.underway.made_of_made hscoping hright.underway hmade hanswer'

/-- What is new in a list corresponds to something that is new in the list of what corresponds to the
holder. -/
theorem Concluded.mem_members_twin {kind : SymbolKind}
    (hmem : definition ∈ left.defs.members holder kind)
    (hnew : ¬ (world.opened source names).Old definition) :
    left.twin right definition ∈ right.defs.members (left.twin right holder) kind ∧
      ¬ (world.opened source names).Old (left.twin right definition) := by
  have hparallel := hleft.parallel hscoping hright
  have horderly := hleft.underway.orderly
  have horderly' := hright.underway.orderly
  obtain ⟨declaration, hmade⟩ : ∃ declaration, (declaration, definition) ∈ left.made := by
    obtain hold | hmade | ⟨hidden, hmem, -⟩ :=
      hleft.underway.census.new definition (horderly.wellFormed.held _ _ _ hmem)
    · exact absurd hold hnew
    · exact hmade
    · simp [hleft.underway.hidden] at hmem
  have hmade' := hleft.made_twin hscoping hright hmade
  refine ⟨?_, (hright.underway.census.missing _ _ hmade').1⟩
  have hanswer := horderly.sound.made _ hmade
  have hanswer' := horderly'.sound.made _ hmade'
  have hkind : declaration.kind = kind :=
    (horderly.sound.kinds _ _ hanswer).symm.trans (Definitions.kind_of_mem_members hmem)
  have hmodule : declaration.kind ≠ .module := fun hmodule => by
    rw [← hkind, hmodule] at hmem
    cases holder <;> cases hmem
  obtain ⟨parent, holder', -, hparent, hholder, hmem', -⟩ := horderly.liesIn hanswer hmodule
  obtain ⟨_, holder'', -, hparent', hholder', hmem'', -⟩ := horderly'.liesIn hanswer' hmodule
  rw [(hright.underway.decls hscoping).trans (hleft.underway.decls hscoping).symm] at hparent'
  cases hparent.symm.trans hparent'
  cases horderly.wellFormed.holder_eq hmem hmem'
  rwa [hparallel.twin_answer hholder hholder', ← hkind]

/-- What was listed at the start in a definition was so in what corresponds to it. -/
theorem Concluded.members_opened_twin {kind : SymbolKind} (hhas : left.defs.has holder = true) :
    (world.opened source names).world.defs.members (left.twin right holder) kind =
      (world.opened source names).world.defs.members holder kind := by
  obtain hold | ⟨declaration, hmade⟩ | ⟨hidden, hmem, -⟩ := hleft.underway.census.new holder hhas
  · rw [(hleft.parallel hscoping hright).twin_of_issued (Definitions.issued_of_has hold)]
  · have hnone {found : Definition} (hnew : ¬ (world.opened source names).Old found) :
        (world.opened source names).world.defs.members found kind = [] :=
      List.eq_nil_iff_forall_not_mem.mpr fun _ hmem => hnew (Definitions.has_of_mem_members hmem)
    have hmade' := hleft.made_twin hscoping hright hmade
    rw [hnone (hleft.underway.census.missing _ _ hmade).1,
      hnone (hright.underway.census.missing _ _ hmade').1]
  · simp [hleft.underway.hidden] at hmem

/-- What is listed in the end is the same on both sides, but for the order of what is new. -/
theorem Concluded.members_twin (hhas : left.defs.has holder = true) (kind : SymbolKind) :
    ∃ added added', left.defs.members holder kind =
        (world.opened source names).world.defs.members holder kind ++ added ∧
      right.defs.members (left.twin right holder) kind =
        (world.opened source names).world.defs.members holder kind ++ added' ∧
      added'.Perm (added.map (left.twin right)) := by
  have hparallel := hleft.parallel hscoping hright
  have hparallel' := hright.parallel hscoping hleft
  have hshared := hleft.shared hright hhas
  obtain ⟨added, hlist, hadded⟩ := hleft.underway.exists_members holder kind
  obtain ⟨added', hlist', hadded'⟩ := hright.underway.exists_members (left.twin right holder) kind
  rw [hleft.members_opened_twin hscoping hright hhas] at hlist'
  refine ⟨added, added', hlist, hlist', ?_⟩
  have hnodup := hleft.underway.orderly.wellFormed.nodup holder kind
  have hnodup' := hright.underway.orderly.wellFormed.nodup (left.twin right holder) kind
  rw [hlist] at hnodup
  rw [hlist'] at hnodup'
  have hmem {item : Definition} (hitem : item ∈ added) : item ∈ left.defs.members holder kind :=
    hlist ▸ List.mem_append_right _ hitem
  have hitems {item : Definition} (hitem : item ∈ added) :
      Shared (world.opened source names) left right item :=
    hleft.shared hright (hleft.underway.orderly.wellFormed.held _ _ _ (hmem hitem))
  have hold {item : Definition} (hnew : ¬ (world.opened source names).Old item) :
      item ∉ (world.opened source names).world.defs.members holder kind :=
    fun hitem => hnew (hscoping.opened.wellFormed.held _ _ _ hitem)
  -- Neither list repeats anything, so it is enough that they have the same members.
  refine (List.perm_ext_iff_of_nodup (List.nodup_append.mp hnodup').2.1 ?_).mpr fun item => ?_
  · exact List.Nodup.map_on (fun item hitem item' hitem' heq =>
      hparallel.twin_injective hparallel' (hitems hitem) (hitems hitem') heq)
      (List.nodup_append.mp hnodup).2.1
  · rw [List.mem_map]
    constructor
    · intro hitem
      have hmem' : item ∈ right.defs.members (left.twin right holder) kind :=
        hlist' ▸ List.mem_append_right _ hitem
      obtain ⟨hback, hnew⟩ := hright.mem_members_twin hscoping hleft hmem' (hadded' item hitem)
      rw [hparallel.twin_twin hparallel' hshared, hlist] at hback
      refine ⟨_, (List.mem_append.mp hback).resolve_left (hold hnew), ?_⟩
      exact hparallel'.twin_twin hparallel
        (hright.shared hleft (hright.underway.orderly.wellFormed.held _ _ _ hmem'))
    · rintro ⟨other, hother, rfl⟩
      obtain ⟨hmem', hnew⟩ :=
        hleft.mem_members_twin hscoping hright (hmem hother) (hadded other hother)
      rw [hlist'] at hmem'
      exact (List.mem_append.mp hmem').resolve_left (hold hnew)

/-- What is remembered in the end corresponds. -/
theorem Concluded.resolved_twin (declaration : Declaration) :
    right.session.resolved.get? declaration =
      (left.session.resolved.get? declaration).map (left.twin right) := by
  rw [← hleft.accomplished.settled.answer_eq, ← hright.accomplished.settled.answer_eq]
  by_cases hasked : asked declaration
  · obtain ⟨definition, hanswer⟩ := hleft.exists_answer hasked
    obtain ⟨found, hanswer'⟩ := hright.exists_answer hasked
    rw [hanswer, hanswer', Option.map_some,
      (hleft.parallel hscoping hright).twin_answer hanswer hanswer']
  · have hnone {now : Moment} (h : Concluded world source names asked now) :
        now.answer declaration = none :=
      Option.eq_none_iff_forall_ne_some.mpr fun _ hanswer =>
        hasked (h.underway.orderly.asked _ _ hanswer)
    rw [hnone hleft, hnone hright, Option.map_none]

/-- What a definition is in the end it is on both sides. -/
theorem Concluded.record_twin {record record' : Record}
    (hrecord : left.defs.record? definition = some record)
    (hrecord' : right.defs.record? (left.twin right definition) = some record') :
    record'.nature =
      { record.nature.retarget (left.twin right) with token := record'.nature.token } ∧
      record'.details = record.details.retarget (left.twin right) ∧ record'.body = record.body := by
  obtain hold | ⟨declaration, hmade⟩ | ⟨hidden, hmem, -⟩ :=
    hleft.underway.census.new definition (Definitions.has_iff.mpr ⟨record, hrecord⟩)
  · rw [(hleft.parallel hscoping hright).twin_of_issued (Definitions.issued_of_has hold)] at hrecord'
    obtain ⟨hnature, hself, hrest⟩ := hleft.record_old hscoping hright hold hrecord hrecord'
    exact ⟨by rw [hself, hnature], hrest⟩
  · exact hleft.record_made hscoping hright hmade (hleft.made_twin hscoping hright hmade) hrecord
      hrecord'
  · simp [hleft.underway.hidden] at hmem

/-- Two sessions in which everything has been resolved correspond. -/
theorem Concluded.corresponds :
    (world.opened source names).Corresponds (left.twin right) left.state right.state where
  kept _ hissued := (hleft.parallel hscoping hright).twin_of_issued hissued
  kind _ hhas := (hleft.parallel hscoping hright).kind_twin (hleft.shared hright hhas)
  injective _ _ hhas hhas' heq := (hleft.parallel hscoping hright).twin_injective
    (hright.parallel hscoping hleft) (hleft.shared hright hhas) (hleft.shared hright hhas') heq
  onto definition := by
    constructor
    · intro hhas
      have hshared := hright.shared hleft hhas
      exact ⟨right.twin left definition, (hright.parallel hscoping hleft).has_twin hshared hhas,
        (hright.parallel hscoping hleft).twin_twin (hleft.parallel hscoping hright) hshared⟩
    · rintro ⟨other, hhas, rfl⟩
      exact (hleft.parallel hscoping hright).has_twin (hleft.shared hright hhas) hhas
  resolved := hleft.resolved_twin hscoping hright
  records definition record hrecord := by
    have hhas : left.defs.has definition = true := Definitions.has_iff.mpr ⟨record, hrecord⟩
    obtain ⟨record', hrecord'⟩ := Definitions.has_iff.mp
      ((hleft.parallel hscoping hright).has_twin (hleft.shared hright hhas) hhas)
    exact ⟨record', hrecord', hleft.record_twin hscoping hright hrecord hrecord'⟩
  tokens definition record record' hold hrecord hrecord' := by
    rw [(hleft.record_old hscoping hright hold hrecord hrecord').1]
  members _ kind hhas := hleft.members_twin hscoping hright hhas kind
  slots := hright.underway.slots.trans hleft.underway.slots.symm
  decls := (hright.underway.decls hscoping).trans (hleft.underway.decls hscoping).symm

end Concluded

/-! ## Resolving modules and types -/

open SessionTask

/-- Resolving modules and types in a fresh session either comes to an end or fails where something is
wrong. -/
theorem resolveScopes_on {nodes : List Declaration} (hscoping : world.Scoping source names asked)
    (hnodes : ∀ node ∈ nodes, asked node)
    (hall : ∀ declaration, asked declaration →
      declaration ∈ nodes ∨ ∃ node ∈ nodes, world.decls.parent? node = some declaration) :
    (∃ done : Moment, (resolveAll nodes).on ⟨{ source }, world⟩ = (.ok (), done.state) ∧
      Concluded world source names asked done) ∨
    ∃ now : Moment, ∃ error, (resolveAll nodes).on ⟨{ source }, world⟩ = (.error error, now.state) ∧
      now.Proceeding world source names asked ∧ now.Fault error := by
  have hbegin := orderly_begin hscoping.prepared
  have hleads : Leads asked (some world.decls.count) (begin source world) (resolveAll nodes) _ :=
    leads_resolveAll hbegin.sound rfl hnodes
  replace hleads := hleads hscoping.closed
  rw [show (begin source world).state = ⟨{ source }, world⟩ from rfl] at hleads
  cases hon : (resolveAll nodes).on ⟨{ source }, world⟩ with
  | mk outcome after =>
      rw [hon] at hleads
      cases outcome with
      | ok value =>
          obtain ⟨done, rfl, hrun, hidle, hanswers⟩ := hleads
          refine .inl ⟨done, rfl, ?_⟩
          obtain ⟨h, hfurnished⟩ | ⟨hwaiting, -⟩ := hrun.proceeding hscoping
          · have hremembered (declaration : Declaration) (hasked : asked declaration) :
                ∃ definition, done.session.resolved.get? declaration = some definition := by
              obtain ⟨definition, hanswer⟩ :
                  ∃ definition, done.answer declaration = some definition := by
                obtain hmem | ⟨node, hmem, hparent⟩ := hall declaration hasked
                · exact hanswers declaration hmem
                · obtain ⟨definition, hanswer⟩ := hanswers node hmem
                  exact h.orderly.answer_parent hanswer (h.decls hscoping ▸ hparent)
              exact ⟨definition, by simpa [answer, hidle, begin] using hanswer⟩
            exact ⟨h, hfurnished, { hrun.accomplished hscoping.prepared hidle hremembered with
              orderly := h.orderly }⟩
          · -- Something is known in the end, so nothing is waited for.
            obtain ⟨id, hasked⟩ := hwaiting.awaited
            obtain ⟨node, hmem⟩ : ∃ node, node ∈ nodes := by
              obtain hmem | ⟨node, hmem, -⟩ := hall _ hasked
              exacts [⟨_, hmem⟩, ⟨node, hmem⟩]
            obtain ⟨definition, hanswer⟩ := hanswers node hmem
            simp [hwaiting.answers] at hanswer
      | error error =>
          obtain ⟨now, rfl, -, hrun, hfault⟩ := hleads
          have h := hrun.proceeding hscoping
          refine .inr ⟨now, error, rfl, h, hfault ?_⟩
          rw [h.decls hscoping]

end Moment

/-! ## Circles -/

open Relation SessionTask

/-- From modules and types on, nothing is asked for but modules and types. -/
theorem Declarations.isScope_of_asks {decls : Declarations} {declaration other : Declaration}
    (hled : ReflTransGen decls.Asks declaration other) (hscope : declaration.kind.isScope = true) :
    other.kind.isScope = true := by
  induction hled with
  | refl => exact hscope
  | @tail middle other _ hasks ih =>
      cases middle with
      | module => exact absurd hasks List.not_mem_nil
      | type => obtain ⟨module, rfl⟩ | ⟨type, rfl, -⟩ := Declarations.asks_type hasks <;> rfl
      | field | method | property | event => cases ih

/-- Resolving modules and types runs in a circle only where a type is entangled. -/
theorem entangled_of_cyclic {state : SessionState} {nodes : List Declaration} {symbol : Symbol}
    (hscopes : ∀ node ∈ nodes, node.kind.isScope = true)
    (hliving : ∀ node ∈ nodes, state.world.decls.has node = true)
    (hsource : (state.world.source state.session.source).FailsAs Error.Acyclic)
    (herror : ((resolveAll nodes).on state).1 = .error (.cyclic symbol)) :
    ∃ id, symbol = state.world.declSymbol (.type id) ∧ state.world.decls.Entangled id := by
  let expected (error : Error) : Prop := ∀ symbol, error = .cyclic symbol →
    ∃ id, symbol = state.world.declSymbol (.type id) ∧ state.world.decls.Entangled id
  have hacyclic (error : Error) (h : error.Acyclic) : expected error :=
    fun symbol heq => absurd heq (h symbol)
  have hcouples : (Pairing.same state.world.decls expected).Couples
      (nodes.forM fun node =>
        discard (resolveOr (fun _ => resolve) (state.world.decls.count + 1) [] node))
      (resolveAll nodes) := by
    refine .forM fun node hmem => (Pairing.couples_resolve hacyclic
      (fun id hentangled symbol heq => ⟨id, (Error.cyclic.inj heq).symm, hentangled⟩) ?_
      (Nat.lt_succ_self _) (hliving node hmem)).map _
    intro other hled _ entry hentry
    have hscope := Declarations.isScope_of_asks hled (hscopes node hmem)
    cases other <;> cases hscope <;> cases hentry
  have hsettled : Pairing.Settled state.world.decls expected state := ⟨rfl, hsource.mono hacyclic⟩
  have hagree := hcouples state state ⟨rfl, hsettled⟩
  exact hagree.expected _ (hagree.outcome.trans herror) symbol rfl

/-! ## Any order -/

/-- Where modules and types can be resolved in one order, they can be in any other one, and what comes
out is the same, unless it runs in a circle: a nested type is asked for before its declaring type,
which depends on it. -/
theorem resolveAll_reordered {world : World} {source : SourceId} {names : List String}
    {asked : Declaration → Prop} {nodes nodes' : List Declaration} {left : SessionState}
    (hscoping : world.Scoping source names asked) (hperm : nodes.Perm nodes')
    (hnodes : ∀ node ∈ nodes, asked node)
    (hall : ∀ declaration, asked declaration →
      declaration ∈ nodes ∨ ∃ node ∈ nodes, world.decls.parent? node = some declaration)
    (hon : (resolveAll nodes).on ⟨{ source }, world⟩ = (.ok (), left)) :
    (∃ twin right, (resolveAll nodes').on ⟨{ source }, world⟩ = (.ok (), right) ∧
      (world.opened source names).Corresponds twin left right) ∨
    ∃ symbol right, (resolveAll nodes').on ⟨{ source }, world⟩ = (.error (.cyclic symbol), right) ∧
      ((world.source source).FailsAs Error.Acyclic →
        ∃ id, symbol = world.declSymbol (.type id) ∧ world.decls.Entangled id) := by
  obtain ⟨left, hon', hleft⟩ | ⟨now, error, hon', -, -⟩ :=
    Moment.resolveScopes_on hscoping hnodes hall <;> cases hon.symm.trans hon'
  have hnodes' (node : Declaration) (hmem : node ∈ nodes') : asked node :=
    hnodes node (hperm.mem_iff.mpr hmem)
  have hall' (declaration : Declaration) (hasked : asked declaration) :
      declaration ∈ nodes' ∨ ∃ node ∈ nodes', world.decls.parent? node = some declaration := by
    simpa only [hperm.mem_iff] using hall declaration hasked
  obtain ⟨right, hon, hright⟩ | ⟨now, error, hon, h, hfault⟩ :=
    Moment.resolveScopes_on hscoping hnodes' hall'
  · exact .inl ⟨_, _, hon, hleft.corresponds hscoping hright⟩
  · obtain ⟨symbol, rfl⟩ := hleft.cyclic_of_fault hscoping h hfault
    refine .inr ⟨symbol, _, hon, fun hsource => ?_⟩
    exact @entangled_of_cyclic ⟨{ source }, world⟩ nodes' symbol
      (fun node hmem => hscoping.scopes node (hnodes' node hmem))
      (fun node hmem => hscoping.prepared.living node (hnodes' node hmem)) hsource
      (congrArg Prod.fst hon)

/-- A module with a type, and declarations of the type, of an interface of it that is nested in it and
missing, and of another missing type, whose base type it is. -/
def World.winding : World :=
  let (module, defs) := ({} : Definitions).makeModule { name := "Game" }
  { defs := (defs.addType module { namespaceName := "Core", name := "Clock", flags := 1 }).2
    decls :=
      { modules := ⟨#[some { terms := ⟨.failIfMissing, false⟩, name := "Game", types := [⟨0⟩, ⟨2⟩] }]⟩
        types := ⟨#[
          some
            { terms := ⟨.failIfMissing, false⟩
              place := .topLevel ⟨0⟩ "Core"
              name := "Clock"
              interfaces := [.declared ⟨1⟩]
              nested := [⟨1⟩] },
          some { terms := ⟨.createIfMissing, false⟩, place := .nested ⟨0⟩, name := "Hand" },
          some
            { terms := ⟨.createIfMissing, false⟩
              place := .topLevel ⟨0⟩ "Core"
              name := "Timer"
              base := some (.declared ⟨0⟩) }]⟩ }
    sources := ⟨#[some (.memory ⟨[("Game", ⟨0⟩)]⟩ {})]⟩ }

theorem World.scoping_winding : World.winding.Scoping ⟨0⟩ ["Game"]
    (· ∈ [.module ⟨0⟩, .type ⟨0⟩, .type ⟨1⟩, .type ⟨2⟩]) where
  prepared :=
    { wellFormed := (Definitions.wellFormed_empty.makeModule "Game").addType rfl "Core" "Clock" 1
      sound := Source.sound_memory (by decide +kernel)
      faithful := Source.faithful_memory (by decide +kernel)
      living := by decide +kernel
      moored := fun id hmem => by
        refine ⟨⟨0⟩, ?_⟩
        simp only [List.mem_cons, Declaration.type.injEq, reduceCtorEq, List.not_mem_nil, or_false,
          false_or] at hmem
        rcases hmem with rfl | rfl | rfl <;> decide +kernel
      known := fun node hmem id htarget => by
        have h : ∀ node ∈ [Declaration.module ⟨0⟩, .type ⟨0⟩, .type ⟨1⟩, .type ⟨2⟩],
            ∀ target ∈ (World.winding.decls.statement node).targets,
              target.declared?.isSome = true := by
          decide +kernel
        cases h node hmem _ htarget
      apart := fun left right hleft hright halike => by
        have hname := halike.name
        simp only [List.mem_cons, List.not_mem_nil, or_false] at hleft hright
        rcases hleft with rfl | rfl | rfl | rfl <;> rcases hright with rfl | rfl | rfl | rfl <;>
          first | rfl | exact absurd hname (by decide +kernel) }
  steady := .inl ⟨_, rfl⟩
  named name := by
    have hname : (World.winding.decls.module ⟨0⟩).name = "Game" := rfl
    simp [hname, eq_comm]
  scopes := by decide +kernel
  closed := by decide +kernel
  anchored := by decide +kernel

/-- All types can be resolved in another order; what is made has another identity then. -/
theorem resolveAll_reordered_winding : ∃ twin left right,
    (resolveAll [.type ⟨0⟩, .type ⟨1⟩, .type ⟨2⟩]).on ⟨{ source := ⟨0⟩ }, .winding⟩ = (.ok (), left) ∧
      (resolveAll [.type ⟨2⟩, .type ⟨0⟩, .type ⟨1⟩]).on ⟨{ source := ⟨0⟩ }, .winding⟩ =
        (.ok (), right) ∧
      (World.winding.opened ⟨0⟩ ["Game"]).Corresponds twin left right ∧
      twin (.type ⟨1⟩) = .type ⟨2⟩ := by
  have hmakes (nodes : List Declaration) (found : Definition)
      (hok : ((resolveAll nodes).on ⟨{ source := ⟨0⟩ }, .winding⟩).1 = .ok ())
      (hfound : ((resolveAll nodes).on ⟨{ source := ⟨0⟩ }, .winding⟩).2.session.resolved.get?
        (.type ⟨1⟩) = some found) : ∃ after,
      (resolveAll nodes).on ⟨{ source := ⟨0⟩ }, .winding⟩ = (.ok (), after) ∧
        after.session.resolved.get? (.type ⟨1⟩) = some found :=
    ⟨_, Prod.ext hok rfl, hfound⟩
  obtain ⟨left, hleft, hmade⟩ := hmakes [.type ⟨0⟩, .type ⟨1⟩, .type ⟨2⟩] (.type ⟨1⟩)
    (by decide +kernel) (by decide +kernel)
  obtain ⟨right, hright, hmade'⟩ := hmakes [.type ⟨2⟩, .type ⟨0⟩, .type ⟨1⟩] (.type ⟨2⟩)
    (by decide +kernel) (by decide +kernel)
  have hperm :
      [Declaration.type ⟨0⟩, .type ⟨1⟩, .type ⟨2⟩].Perm [.type ⟨2⟩, .type ⟨0⟩, .type ⟨1⟩] := by
    decide +kernel
  obtain ⟨twin, _, hon, hcorresponds⟩ | ⟨_, _, hfails, -⟩ :=
    resolveAll_reordered World.scoping_winding hperm (by decide +kernel) (by decide +kernel) hleft
  · cases hright.symm.trans hon
    refine ⟨twin, left, right, hleft, hright, hcorresponds, ?_⟩
    have hresolved := hcorresponds.resolved (.type ⟨1⟩)
    rw [hmade, hmade', Option.map_some] at hresolved
    exact (Option.some.inj hresolved).symm
  · cases hright.symm.trans hfails

/-- A nested type that its declaring type depends on cannot be resolved first. -/
theorem nested_before_declaring :
    ¬ ∀ (world : World) (source : SourceId) (names : List String) (asked : Declaration → Prop)
      (nodes nodes' : List Declaration), world.Scoping source names asked → nodes.Perm nodes' →
      (∀ node ∈ nodes, asked node) →
      (∀ declaration, asked declaration →
        declaration ∈ nodes ∨ ∃ node ∈ nodes, world.decls.parent? node = some declaration) →
      ∀ left, (resolveAll nodes).on ⟨{ source }, world⟩ = (.ok (), left) →
        ∃ right, (resolveAll nodes').on ⟨{ source }, world⟩ = (.ok (), right) := by
  intro h
  have hok : ((resolveAll [.type ⟨0⟩, .type ⟨1⟩, .type ⟨2⟩]).on ⟨{ source := ⟨0⟩ }, .winding⟩).1 =
      .ok () := by
    decide +kernel
  have hfails : ((resolveAll [.type ⟨1⟩, .type ⟨0⟩, .type ⟨2⟩]).on ⟨{ source := ⟨0⟩ }, .winding⟩).1 =
      .error (.cyclic ⟨.type, "Core.Clock/Hand"⟩) := by
    decide +kernel
  cases hleft : (resolveAll [.type ⟨0⟩, .type ⟨1⟩, .type ⟨2⟩]).on ⟨{ source := ⟨0⟩ }, .winding⟩ with
  | mk outcome left =>
      rw [hleft] at hok
      cases hok
      obtain ⟨right, hright⟩ := h _ _ _ _ _ [.type ⟨1⟩, .type ⟨0⟩, .type ⟨2⟩] World.scoping_winding
        (by decide +kernel) (by decide +kernel) (by decide +kernel) left hleft
      rw [hright] at hfails
      cases hfails

/-- Where a type is listed in two modules, another declaration may have changed what one only reads. -/
theorem reordered_fails_shared :
    ¬ ∀ (world : World) (source : SourceId) (modules : Dictionary String (DefId .module))
      (saves : Dictionary String Nat) (scopes nodes nodes' : List Declaration),
      world.source source = .memory modules saves → world.defs.Held →
      (world.source source).Sound world.defs → world.decls.Closed (· ∈ scopes) →
      (∀ node ∈ scopes, node.kind.isScope = true ∧ world.decls.has node = true) →
      nodes.Perm nodes' → (∀ node ∈ nodes, node ∈ scopes) →
      (∀ declaration ∈ scopes,
        declaration ∈ nodes ∨ ∃ node ∈ nodes, world.decls.parent? node = some declaration) →
      ∀ left, (resolveAll nodes).on ⟨{ source }, world⟩ = (.ok (), left) →
        (∃ right, (resolveAll nodes').on ⟨{ source }, world⟩ = (.ok (), right)) ∨
        ∃ symbol right,
          (resolveAll nodes').on ⟨{ source }, world⟩ = (.error (.cyclic symbol), right) := by
  intro h
  have hok : ((resolveAll [.type ⟨0⟩, .type ⟨1⟩]).on ⟨{ source := ⟨0⟩ }, .jointFlags⟩).1 = .ok () := by
    decide +kernel
  have hfails : ((resolveAll [.type ⟨1⟩, .type ⟨0⟩]).on ⟨{ source := ⟨0⟩ }, .jointFlags⟩).1 =
      .error (.readOnly ⟨.type, "Core.Clock"⟩) := by
    decide +kernel
  have hsound : (World.jointFlags.source ⟨0⟩).Sound World.jointFlags.defs :=
    Source.sound_memory (by decide +kernel)
  cases hleft : (resolveAll [.type ⟨0⟩, .type ⟨1⟩]).on ⟨{ source := ⟨0⟩ }, .jointFlags⟩ with
  | mk outcome left =>
      rw [hleft] at hok
      cases hok
      obtain ⟨right, hright⟩ | ⟨_, right, hright⟩ := h .jointFlags ⟨0⟩ _ _
        [.module ⟨0⟩, .module ⟨1⟩, .type ⟨0⟩, .type ⟨1⟩] _ [.type ⟨1⟩, .type ⟨0⟩] rfl World.held_joint
        hsound (by decide +kernel) (by decide +kernel) (by decide +kernel) (by decide +kernel)
        (by decide +kernel) left hleft <;>
        (rw [hright] at hfails; cases hfails)

/-- A codec that makes empty modules, the one with a certain name only as long as there is none. -/
def Codec.reluctant (first : String) : Codec where
  decode name _ defs :=
    if name = first ∧ defs.modules.next ≠ 0 then .error (.refused (.custom "out of turn"))
    else .ok (defs.makeModule { name })
  encode _ _ := .ok .empty

theorem Codec.decode_reluctant {first name : String} {bytes : ByteArray} {defs defs' : Definitions}
    {module : DefId .module} (h : (reluctant first).decode name bytes defs = .ok (module, defs')) :
    defs.makeModule { name } = (module, defs') := by
  simp only [reluctant] at h
  split at h
  · cases h
  · exact Except.ok.inj h

theorem Codec.lawful_reluctant (first : String) : (reluctant first).Lawful :=
  lawful_of_makeModule fun _ _ _ _ _ => decode_reluctant

theorem Codec.faithful_reluctant (first : String) : (reluctant first).Faithful := by
  intro name bytes defs defs' module hwell hdecode
  have hmade := hwell.makeModule name
  have hname : ((defs.makeModule { name }).2.module (defs.makeModule { name }).1).name = name := by
    simp [Definitions.makeModule, Definitions.module]
  rw [decode_reluctant hdecode] at hmade hname
  exact ⟨hmade, hname⟩

/-- Declarations of a missing type in each of two modules, which this codec makes. -/
def World.reluctant : World where
  decls :=
    { modules := ⟨#[
        some { terms := ⟨.failIfMissing, false⟩, name := "Game", types := [⟨0⟩] },
        some { terms := ⟨.failIfMissing, false⟩, name := "Mod", types := [⟨1⟩] }]⟩
      types := ⟨#[
        some { terms := ⟨.createIfMissing, false⟩, place := .topLevel ⟨0⟩ "Core", name := "Clock" },
        some { terms := ⟨.createIfMissing, false⟩, place := .topLevel ⟨1⟩ "Core", name := "Clock" }
        ]⟩ }
  sources := ⟨#[some (.streamed (.leaf ⟨0⟩) (.reluctant "Game"))]⟩
  leaves := ⟨#[some { kind := .memory, buffers := ⟨[("Game", .empty), ("Mod", .empty)]⟩ }]⟩

theorem World.prepared_reluctant : World.reluctant.Prepared ⟨0⟩
    (· ∈ [.module ⟨0⟩, .module ⟨1⟩, .type ⟨0⟩, .type ⟨1⟩]) where
  wellFormed := Definitions.wellFormed_empty
  sound := Codec.lawful_reluctant "Game"
  faithful := Codec.faithful_reluctant "Game"
  living := by decide +kernel
  moored id hmem := by
    simp only [List.mem_cons, Declaration.type.injEq, reduceCtorEq, List.not_mem_nil, or_false,
      false_or] at hmem
    rcases hmem with rfl | rfl
    exacts [⟨⟨0⟩, by decide +kernel⟩, ⟨⟨1⟩, by decide +kernel⟩]
  known node hmem id htarget := by
    have h : ∀ node ∈ [Declaration.module ⟨0⟩, .module ⟨1⟩, .type ⟨0⟩, .type ⟨1⟩],
        (World.reluctant.decls.statement node).targets = [] := by
      decide +kernel
    rw [h node hmem] at htarget
    cases htarget
  apart left right hleft hright halike := by
    have hparent := halike.parent
    have hname := halike.name
    simp only [List.mem_cons, List.not_mem_nil, or_false] at hleft hright
    rcases hleft with rfl | rfl | rfl | rfl <;> rcases hright with rfl | rfl | rfl | rfl <;>
      first | rfl | exact absurd hname (by decide +kernel) | exact absurd hparent (by decide +kernel)

/-- What a codec makes of a module may depend on what it has made before. -/
theorem reordered_fails_streamed :
    ¬ ∀ (world : World) (source : SourceId) (scopes nodes nodes' : List Declaration),
      world.Prepared source (· ∈ scopes) → world.decls.Closed (· ∈ scopes) →
      (∀ node ∈ scopes, node.kind.isScope = true) →
      nodes.Perm nodes' → (∀ node ∈ nodes, node ∈ scopes) →
      (∀ declaration ∈ scopes,
        declaration ∈ nodes ∨ ∃ node ∈ nodes, world.decls.parent? node = some declaration) →
      ∀ left, (resolveAll nodes).on ⟨{ source }, world⟩ = (.ok (), left) →
        (∃ right, (resolveAll nodes').on ⟨{ source }, world⟩ = (.ok (), right)) ∨
        ∃ symbol right,
          (resolveAll nodes').on ⟨{ source }, world⟩ = (.error (.cyclic symbol), right) := by
  intro h
  have hok : ((resolveAll [.type ⟨0⟩, .type ⟨1⟩]).on ⟨{ source := ⟨0⟩ }, .reluctant⟩).1 = .ok () := by
    decide +kernel
  have hfails : ((resolveAll [.type ⟨1⟩, .type ⟨0⟩]).on ⟨{ source := ⟨0⟩ }, .reluctant⟩).1 =
      .error (.refused (.custom "out of turn")) := by
    decide +kernel
  cases hleft : (resolveAll [.type ⟨0⟩, .type ⟨1⟩]).on ⟨{ source := ⟨0⟩ }, .reluctant⟩ with
  | mk outcome left =>
      rw [hleft] at hok
      cases hok
      obtain ⟨right, hright⟩ | ⟨_, right, hright⟩ := h .reluctant ⟨0⟩ _ _ [.type ⟨1⟩, .type ⟨0⟩]
        World.prepared_reluctant (by decide +kernel) (by decide +kernel) (by decide +kernel)
        (by decide +kernel) (by decide +kernel) left hleft <;>
        (rw [hright] at hfails; cases hfails)

end Graft
