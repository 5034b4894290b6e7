import Graft.Proofs.Session.Locating
import Graft.Proofs.Session.Standing

/-!
# What is written, and for whom

Every change to a definition is made for a declaration that may be changed and that the definition
stands for, and everything new in a list is new for a declaration that may be changed, inside the
definition that the declaration around it stands for (`Accounts`). This is kept by every step
(`Step.accounted`), whether or not the resolution succeeds in the end.
-/

namespace Graft

namespace SessionState

variable (asked : Declaration → Prop) (start : World) (state : SessionState)

/-- Whether a definition is the one of a declaration that was asked for and may be changed. -/
def Writes (definition : Definition) : Prop :=
  ∃ declaration, asked declaration ∧ state.world.decls.Writable declaration ∧
    Stands state declaration definition

/-- Whether a definition may have been put into the list of another one: for a declaration that
was asked for and may be changed, or as the hidden method of such a declaration. -/
inductive Places : Definition → Definition → Prop where
  | declared {declaration parent : Declaration} {holder member : Definition}
      (hasked : asked declaration) (hwritable : state.world.decls.Writable declaration)
      (hparent : state.world.decls.parent? declaration = some parent)
      (hholder : Stands state parent holder) (hmember : Stands state declaration member) :
      Places holder member
  | hidden {id : DeclId .method} {method hidden : DefId .method} {owner : DefId .type}
      {record made : Record} (hasked : asked (.method id))
      (hwritable : state.world.decls.Writable (.method id))
      (hmethod : Stands state (.method id) (.method method))
      (hrecord : state.world.defs.record? (.method method) = some record)
      (howner : record.nature.owner = some owner)
      (hmade : state.world.defs.record? (.method hidden) = some made)
      (hnature : made.nature =
        { name := made.nature.name
          shape := record.nature.shape
          token := made.nature.token
          owner := some owner }) :
      Places (.type owner) (.method hidden)

/-- What a definition was at first: as it was in the beginning, or as the source of the session
handed it out. -/
def Origin (definition : Definition) (record : Record) : Prop :=
  start.defs.record? definition = some record ∨
    ∃ name module before after, start.defs.Grows before.defs ∧
      (Task.load state.session.source name).on before = (.ok module, after) ∧
      before.defs.has definition = false ∧ after.defs.record? definition = some record ∧
      after.defs.Grows state.world.defs

/-- Whether a definition is what it was but for changes that are accounted for. -/
structure Kept (definition : Definition) (record record' : Record) : Prop where
  nature : record'.nature = record.nature
  written : record'.details = record.details ∧ record'.body = record.body ∨
    Writes asked state definition
  listed : ∀ kind, ∃ added, record'.members kind = record.members kind ++ added ∧
    ∀ member ∈ added, Places asked state definition member

/-- Whether a definition and all that it holds are new for declarations that may be changed. -/
structure Made (definition : Definition) (record : Record) : Prop where
  placed : Writes asked state definition ∨ ∃ holder, Places asked state holder definition
  listed : ∀ kind, ∀ member ∈ record.members kind, Places asked state definition member

/-- Whether all that was written into a definition is accounted for. -/
def Accounts (definition : Definition) (record : Record) : Prop :=
  (∃ first, Origin start state definition first ∧
    Kept asked state definition first record) ∨
  Made asked state definition record

variable {asked start state} {definition : Definition} {record record' : Record}

theorem Kept.refl : Kept asked state definition record record :=
  ⟨rfl, .inl ⟨rfl, rfl⟩, fun _ => ⟨[], by simp⟩⟩

/-- A change of the details or of the body is accounted for by a declaration. -/
theorem Accounts.write (h : Accounts asked start state definition record)
    (hwrites : Writes asked state definition) (hnature : record'.nature = record.nature)
    (hmembers : record'.members = record.members) :
    Accounts asked start state definition record' := by
  rcases h with ⟨first, horigin, hkept⟩ | hmade
  · exact .inl ⟨first, horigin, hnature.trans hkept.nature, .inr hwrites, hmembers ▸ hkept.listed⟩
  · exact .inr ⟨.inl hwrites, hmembers ▸ hmade.listed⟩

/-- A new member is accounted for by its place. -/
theorem Accounts.add {member : Definition} (h : Accounts asked start state definition record)
    (hplaces : Places asked state definition member) :
    Accounts asked start state definition (record.add member) := by
  rcases h with ⟨first, horigin, hkept⟩ | hmade
  · refine .inl ⟨first, horigin, hkept.nature, hkept.written, fun kind => ?_⟩
    obtain ⟨added, hadded, hplaced⟩ := hkept.listed kind
    by_cases hkind : kind = member.kind
    · refine ⟨added ++ [member], by simp [Record.add, ← hkind, hadded], fun other hmem => ?_⟩
      rcases List.mem_append.mp hmem with hmem | hmem
      · exact hplaced other hmem
      · exact List.mem_singleton.mp hmem ▸ hplaces
    · exact ⟨added, by simp [Record.add, hkind, hadded], hplaced⟩
  · refine .inr ⟨hmade.placed, fun kind other hmem => ?_⟩
    by_cases hkind : kind = member.kind
    · simp only [Record.add, hkind, if_pos, List.mem_append, List.mem_singleton] at hmem
      rcases hmem with hmem | rfl
      · exact hmade.listed _ other hmem
      · exact hplaces
    · simp only [Record.add, hkind, if_false] at hmem
      exact hmade.listed _ other hmem

/-- Whether all that was written into any definition is accounted for. -/
def Accounted (asked : Declaration → Prop) (start : World) (state : SessionState) : Prop :=
  ∀ definition record, state.world.defs.record? definition = some record →
    Accounts asked start state definition record

end SessionState

namespace Moment

open SessionState

variable {asked : Declaration → Prop} {mode : Mode} {start : World} {now next : Moment}
  {definition : Definition} {record : Record}

/-! ## What is accounted for stays so -/

theorem Later.writes (h : now.Later next) (hwrites : Writes asked now.state definition) :
    Writes asked next.state definition := by
  obtain ⟨declaration, hasked, hwritable, hstands⟩ := hwrites
  have hdecls : next.state.world.decls = now.state.world.decls := h.decls
  exact ⟨declaration, hasked, hdecls ▸ hwritable, h.stands hstands⟩

theorem Later.places (h : now.Later next) {member : Definition}
    (hplaces : Places asked now.state definition member) :
    Places asked next.state definition member := by
  have hdecls : next.state.world.decls = now.state.world.decls := h.decls
  cases hplaces with
  | declared hasked hwritable hparent hholder hmember =>
      exact .declared hasked (hdecls ▸ hwritable) (hdecls ▸ hparent) (h.stands hholder)
        (h.stands hmember)
  | hidden hasked hwritable hmethod hrecord howner hmade hnature =>
      obtain ⟨record, hrecord', heq, -⟩ := h.grows.kept _ _ hrecord
      obtain ⟨made, hmade', heq', -⟩ := h.grows.kept _ _ hmade
      exact .hidden hasked (hdecls ▸ hwritable) (h.stands hmethod) hrecord' (by rw [heq, howner])
        hmade' (by rw [heq, heq', ← hnature])

theorem Later.accounts (h : now.Later next)
    (haccounts : Accounts asked start now.state definition record) :
    Accounts asked start next.state definition record := by
  rcases haccounts with ⟨first, horigin, hkept⟩ | hmade
  · refine .inl ⟨first, ?_, hkept.nature, hkept.written.imp_right h.writes, fun kind => ?_⟩
    · rcases horigin with hstart | ⟨name, module, before, after, hbefore, hload, hnew, hrecord,
        hafter⟩
      · exact .inl hstart
      · exact .inr ⟨name, module, before, after, hbefore, by rw [h.source]; exact hload, hnew,
          hrecord, hafter.trans h.grows⟩
    · obtain ⟨added, hadded, hplaced⟩ := hkept.listed kind
      exact ⟨added, hadded, fun member hmem => h.places (hplaced member hmem)⟩
  · exact .inr ⟨hmade.placed.imp h.writes fun ⟨holder, hplaces⟩ => ⟨holder, h.places hplaces⟩,
      fun kind member hmem => h.places (hmade.listed kind member hmem)⟩

/-! ## Every step -/

/-- What is added to a list is accounted for, if it is in its place. -/
theorem accounted_of_adds {defs : Definitions} {parent made : Definition} {added : Record}
    (h : Accounted asked start now.state) (hlater : now.Later (now.withDefs defs))
    (hadds : now.defs.Adds defs parent made added) (hempty : added.members = fun _ => [])
    (hplaces : Places asked (now.withDefs defs).state parent made) :
    Accounted asked start (now.withDefs defs).state := by
  intro definition record hrecord
  replace hrecord : defs.record? definition = some record := hrecord
  rw [hadds.record?] at hrecord
  split at hrecord
  · rename_i hmade
    cases hrecord
    subst hmade
    exact .inr ⟨.inr ⟨parent, hplaces⟩, by simp [hempty]⟩
  · split at hrecord
    · rename_i hparent
      subst hparent
      obtain ⟨before, hbefore, rfl⟩ := Option.map_eq_some_iff.mp hrecord
      exact (hlater.accounts (h definition before hbefore)).add hplaces
    · exact hlater.accounts (h definition record hrecord)

/-- What is changed is accounted for, if it is changed for a declaration. -/
theorem accounted_of_changes {defs : Definitions} {changed : Definition}
    {change : Record → Record} (h : Accounted asked start now.state)
    (hlater : now.Later (now.withDefs defs)) (hchanges : now.defs.Changes defs changed change)
    (hnature : ∀ record, (change record).nature = record.nature)
    (hmembers : ∀ record, (change record).members = record.members)
    (hwrites : Writes asked (now.withDefs defs).state changed) :
    Accounted asked start (now.withDefs defs).state := by
  intro definition record hrecord
  replace hrecord : defs.record? definition = some record := hrecord
  rw [hchanges.record?] at hrecord
  split at hrecord
  · rename_i heq
    subst heq
    obtain ⟨before, hbefore, rfl⟩ := Option.map_eq_some_iff.mp hrecord
    exact (hlater.accounts (h definition before hbefore)).write hwrites (hnature before)
      (hmembers before)
  · exact hlater.accounts (h definition record hrecord)

theorem Step.accounted (hstep : Step asked mode now next) (hsound : now.Sound)
    (hstanding : now.Standing) (hstart : start.defs.Grows now.defs)
    (h : Accounted asked start now.state) : Accounted asked start next.state := by
  have hlater := hstep.later hsound
  have hstanding' := hstep.standing hsound hstanding
  have hkept (hdefs : next.state.world.defs = now.state.world.defs) :
      Accounted asked start next.state := fun definition record hrecord =>
    hlater.accounts (h definition record (hdefs ▸ hrecord))
  -- What is loaded is accounted for by the loading, all else that is new or changed by a
  -- declaration.
  cases hstep with
  | quiet hquiet => exact hkept hquiet.defs
  | enter | locate | confirm | remember | abandon => exact hkept rfl
  | @load id rest name module world hstack hasked hname hnone hload =>
      obtain ⟨hextends, -, -, -⟩ := Task.load_ok hsound.source hsound.held hload
      intro definition record hrecord
      by_cases hhas : now.defs.has definition = true
      · refine hlater.accounts (h definition record ?_)
        rw [← hextends.record? definition hhas]
        exact hrecord
      · exact .inl ⟨record, .inr ⟨name, module, now.world, world, hstart, hload,
          eq_false_of_ne_true hhas, hrecord, .refl _⟩, .refl⟩
  | @makeModule id rest name hstack hasked hwritable hname hnone =>
      intro definition record hrecord
      have hmakes := Definitions.makeModule_makes now.defs { name }
      replace hrecord : (now.defs.makeModule { name }).2.record? definition = some record := hrecord
      rw [hmakes.record?] at hrecord
      split at hrecord
      · rename_i hmade
        cases hrecord
        subst hmade
        refine .inr ⟨.inl ⟨.module id, hasked, hwritable, .module ?_⟩, fun kind => ?_⟩
        · subst hname
          exact (Dictionary.get?_insert ..).trans (if_pos rfl)
        · cases kind <;> simp [ModuleDef.record]
      · exact hlater.accounts (h definition record hrecord)
  | create hstack hasked hwritable _ _ hparent hholder hkind hrenders hadds =>
      have hlater' : now.Later (now.withDefs _) := Later.withDefs hadds.grows
      refine accounted_of_adds h hlater' hadds hrenders.members ?_
      exact .declared hasked hwritable hparent (hlater.stands (hstanding.answer hholder))
        (hstanding'.located _ _ List.mem_cons_self)
  | amend hstack hasked hwritable hstated hchanges =>
      exact accounted_of_changes h hlater hchanges (fun _ => rfl) (fun _ => rfl)
        ⟨_, hasked, hwritable,
          hlater.stands (hstanding.located _ _ (by rw [hstack]; exact List.mem_cons_self))⟩
  | hide _ hasked hwritable hmemo hrecord howner hunused hnature hdetails hbody hmembers hadds =>
      refine accounted_of_adds h (Later.withDefs hadds.grows) hadds hmembers ?_
      have hmethod := hlater.stands (hstanding.remembered _ _ hmemo)
      obtain ⟨record, hrecord', heq, -⟩ := hlater.grows.kept _ _ hrecord
      have hmade : (now.withDefs _).defs.record? _ = some _ := hadds.record_made
      exact .hidden hasked hwritable hmethod hrecord' (by rw [heq, howner]) hmade
        (by rw [heq]; exact hnature)
  | graft hgrafts hasked hwritable hmemo hchanges =>
      exact accounted_of_changes h hlater hchanges (fun _ => rfl) (fun _ => rfl)
        ⟨_, hasked, hwritable, hlater.stands (hstanding.remembered _ _ hmemo)⟩

/-- A run writes nothing that is not accounted for. -/
theorem Run.accounted (hrun : Run asked mode now next) (hsound : now.Sound)
    (hstanding : now.Standing) (hstart : start.defs.Grows now.defs)
    (h : Accounted asked start now.state) : Accounted asked start next.state := by
  refine (hrun.keeps (P := fun next => next.Standing ∧ start.defs.Grows next.defs ∧
    Accounted asked start next.state) hsound ?_ ⟨hstanding, hstart, h⟩).2.2
  intro now next hstep hsound ⟨hstanding, hstart, h⟩
  exact ⟨hstep.standing hsound hstanding, hstart.trans (hstep.later hsound).grows,
    hstep.accounted hsound hstanding hstart h⟩

end Moment

end Graft
