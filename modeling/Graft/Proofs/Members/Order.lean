import Graft.Proofs.Install.Establishing
import Graft.Proofs.Members.Agreeing
import Mathlib.Data.List.Nodup

/-!
# The order of members

Members can be resolved in any order once all types have been resolved (`resolveAll_perm`): if it
succeeds in one order then it does in all of them, and what comes out is the same up to the
identities of what was made, the order in which it is listed, and tokens (`SessionState.Alike`).
That is so in rooted sessions only: where two declarations are about the same member it makes a
difference which one comes first (`member_contested`).
-/

namespace Graft

/-- Whether two states that have come out of the same one differ in nothing but the identities of
what was made since, the order in which it is listed, and the tokens that it was given. -/
structure SessionState.Alike (start : SessionState) (twin : Definition → Definition)
    (left right : SessionState) : Prop where
  kept : ∀ definition, start.world.defs.Issued definition → twin definition = definition
  kind : ∀ definition, left.world.defs.has definition = true →
    (twin definition).kind = definition.kind
  injective : ∀ definition other, left.world.defs.has definition = true →
    left.world.defs.has other = true → twin definition = twin other → definition = other
  onto : ∀ definition, right.world.defs.has definition = true ↔
    ∃ other, left.world.defs.has other = true ∧ twin other = definition
  resolved : ∀ declaration,
    right.session.resolved.get? declaration = (left.session.resolved.get? declaration).map twin
  records : ∀ definition record, left.world.defs.record? definition = some record →
    ∃ record', right.world.defs.record? (twin definition) = some record' ∧
      record'.nature = { record.nature with token := record'.nature.token } ∧
      record'.details = record.details.rename twin ∧ record'.body = record.body
  tokens : ∀ definition record record', start.world.defs.has definition = true →
    left.world.defs.record? definition = some record →
    right.world.defs.record? definition = some record' → record'.nature.token = record.nature.token
  members : ∀ holder kind, left.world.defs.has holder = true → ∃ added added',
    left.world.defs.members holder kind = start.world.defs.members holder kind ++ added ∧
      right.world.defs.members (twin holder) kind =
        start.world.defs.members holder kind ++ added' ∧ added'.Perm (added.map twin)
  modules : right.session.modules = left.session.modules
  slots : right.world.slots = left.world.slots
  decls : right.world.decls = left.world.decls

/-- Only modules and types hold anything. -/
theorem Definitions.members_of_member {defs : Definitions} {holder : Definition} {kind : SymbolKind}
    (hmember : holder.kind.isScope = false) : defs.members holder kind = [] := by
  cases holder with
  | module | type => cases hmember
  | field | method | property | event => rfl

/-- What a member finds, or what is made for it, refers to no method that has not been made before.
-/
theorem SessionState.Rooted.issued_original {state : SessionState} {asked : Declaration → Prop}
    {declaration : Declaration} {definition : Definition} {id : DefId .method}
    (h : state.Rooted asked)
    (hmem : .definition (.method id) ∈ (state.original declaration definition).targets) :
    state.world.defs.Issued (.method id) := by
  unfold SessionState.original at hmem
  split at hmem
  · exact h.linked _ _ _ ‹_› hmem
  · simp [Details.targets] at hmem

namespace Moment

variable {state : SessionState} {asked : Declaration → Prop} {left right now : Moment}
  {declaration : Declaration} {definition found : Definition}

section Alike

variable (hrooted : state.Rooted asked) (hleft : Completed state asked left)
  (hright : Completed state asked right)

include hleft

/-- A method that a member names as an accessor is known in the end. -/
theorem Completed.accessor_answer {entry : AccessorRole × DeclId .method} (hasked : asked declaration)
    (hmemo : state.session.resolved.get? declaration = none)
    (hmem : entry ∈ (state.world.decls.statement declaration).accessors) :
    ∃ method, left.answer (.method entry.2) = some (.method method) := by
  obtain ⟨definition, -, hconfirms⟩ := hleft.confirms hasked hmemo
  obtain ⟨-, -, method, hanswer, -⟩ :=
    (hconfirms (.accessor entry.1 entry.2) (Declarations.mem_details.mpr hmem)).holds
  exact ⟨method, hanswer⟩

/-- What a member stands for in the end has the details that it states. -/
theorem Completed.details_eq (hmemo : state.session.resolved.get? declaration = none)
    (hanswer : left.answer declaration = some definition) {record : Record}
    (hrecord : left.defs.record? definition = some record) :
    record.details = left.amended declaration (state.original declaration definition) := by
  obtain ⟨hasked, hmember⟩ := hleft.resolving.asked_of_answer hanswer hmemo
  obtain ⟨_, hrecord', hamended⟩ := hleft.tended.amended _ _ hanswer hmemo
  cases hrecord.symm.trans hrecord'
  obtain ⟨_, hother, hconfirms⟩ := hleft.confirms hasked hmemo
  cases hanswer.symm.trans hother
  exact hamended.complete hrecord hmember fun detail hmem =>
    (hconfirms detail (hleft.resolving.decls ▸ hmem)).holds

include hright

/-- What exists in the end has a twin. -/
theorem Completed.shared (hhas : left.defs.has definition = true) :
    Shared state left right definition := by
  obtain hhas | ⟨declaration, hmade⟩ := hleft.resolving.there definition hhas
  · exact .inl (Definitions.issued_of_has hhas)
  · have hasked := (hleft.resolving.supplied _ _ hmade).asked
    obtain ⟨found, hknown⟩ := hright.remembered declaration hasked
    exact .inr ⟨declaration, found, hleft.resolving.sound.made _ hmade, answer_of_remembered hknown⟩

/-- A member stands for the same in the end if it found something. -/
theorem Completed.answer_of_has (hhas : state.world.defs.has definition = true)
    (hmemo : state.session.resolved.get? declaration = none)
    (hanswer : left.answer declaration = some definition) :
    right.answer declaration = some definition := by
  obtain ⟨hasked, -⟩ := hleft.resolving.asked_of_answer hanswer hmemo
  obtain ⟨hmade, -⟩ | ⟨hfinds, -⟩ := hleft.resolving.made_or_found hanswer hmemo
  · exact absurd (Definitions.issued_of_has hhas) (hleft.resolving.supplied _ _ hmade).new
  · exact (hright.found hasked hmemo hfinds).1

include hrooted

/-- What has been resolved in two sessions is parallel. -/
theorem Completed.parallel : Parallel state left right :=
  hleft.resolving.parallel hrooted hright.resolving

/-- What was made for a member on the one side corresponds to what was made for it on the other. -/
theorem Completed.made_twin (hmade : (declaration, definition) ∈ left.made) :
    (declaration, left.twin right definition) ∈ right.made := by
  have hsupplied := hleft.resolving.supplied _ _ hmade
  obtain ⟨found, hknown⟩ := hright.remembered declaration hsupplied.asked
  have hanswer := answer_of_remembered hknown
  rw [(hleft.parallel hrooted hright).twin_of_made hmade hanswer]
  obtain hmade' | ⟨hfinds, -⟩ := hright.resolving.answered _ _ hanswer
  · exact hmade'
  · simp [hsupplied.missing] at hfinds

/-- What a member stands for has the same details on both sides. -/
theorem Completed.details_twin (hmemo : state.session.resolved.get? declaration = none)
    (hanswer : left.answer declaration = some definition)
    (hanswer' : right.answer declaration = some found)
    (hsame : state.original declaration found = state.original declaration definition)
    {record record' : Record} (hrecord : left.defs.record? definition = some record)
    (hrecord' : right.defs.record? found = some record') :
    record'.details = record.details.rename (left.twin right) := by
  obtain ⟨hasked, hmember⟩ := hleft.resolving.asked_of_answer hanswer hmemo
  rw [hleft.details_eq hmemo hanswer hrecord, hright.details_eq hmemo hanswer' hrecord',
    hsame]
  refine amended_rename hrooted hleft.resolving hright.resolving hasked ?_ ?_ ?_
  · exact fun id hmem => hrooted.issued_original hmem
  · intro override hmem
    have hstated : override.targets ⊆ (state.world.decls.statement declaration).targets :=
      fun target htarget => List.mem_append_right _ (List.mem_flatMap.mpr ⟨_, hmem, htarget⟩)
    exact ⟨fun target htarget =>
        (hleft.covers hasked hmemo).settled target (hstated htarget),
      fun target htarget => (hright.covers hasked hmemo).settled target (hstated htarget)⟩
  · intro entry hmem
    obtain ⟨method, hmethod⟩ := hleft.accessor_answer hasked hmemo hmem
    obtain ⟨method', hmethod'⟩ := hright.accessor_answer hasked hmemo hmem
    exact ⟨method, method', hmethod, hmethod'⟩

/-- What was there before is changed in the same way on both sides. -/
theorem Completed.record_old (hhas : state.world.defs.has definition = true)
    {record record' : Record} (hrecord : left.defs.record? definition = some record)
    (hrecord' : right.defs.record? definition = some record') :
    record'.nature = record.nature ∧ record'.details = record.details.rename (left.twin right) ∧
      record'.body = record.body := by
  obtain ⟨before, hbefore⟩ := Definitions.has_iff.mp hhas
  have hnature := hleft.resolving.grows.nature_eq hbefore hrecord
  have hnature' := hright.resolving.grows.nature_eq hbefore hrecord'
  refine ⟨hnature'.trans hnature.symm, ?_, ?_⟩
  · by_cases hstands : ∃ declaration, left.answer declaration = some definition ∧
        state.session.resolved.get? declaration = none
    · obtain ⟨declaration, hanswer, hmemo⟩ := hstands
      have hanswer' := hleft.answer_of_has hright hhas hmemo hanswer
      exact hleft.details_twin hrooted hright hmemo hanswer hanswer' rfl hrecord hrecord'
    · have hsame : record.details = before.details := by
        refine (hleft.tended.touched definition before record hbefore hrecord).resolve_right ?_
        rintro ⟨declaration, hanswer, hmemo, -⟩
        exact hstands ⟨declaration, hanswer, hmemo⟩
      have hsame' : record'.details = before.details := by
        refine (hright.tended.touched definition before record' hbefore hrecord').resolve_right ?_
        rintro ⟨declaration, hanswer, hmemo, -⟩
        exact hstands ⟨declaration, hright.answer_of_has hleft hhas hmemo hanswer, hmemo⟩
      rw [hsame', hsame, Details.rename_self]
      exact fun id hmem => (hleft.parallel hrooted hright).renamed_of_issued
        (hrooted.linked definition before _ hbefore hmem)
  · obtain ⟨_, hother, hbody⟩ := hleft.tended.bodies _ _ hbefore
    obtain ⟨_, hother', hbody'⟩ := hright.tended.bodies _ _ hbefore
    cases hrecord.symm.trans hother
    cases hrecord'.symm.trans hother'
    exact hbody'.trans hbody.symm

/-- What is made for a member is the same on both sides, but for its token. -/
theorem Completed.record_made (hmade : (declaration, definition) ∈ left.made)
    {record record' : Record} (hrecord : left.defs.record? definition = some record)
    (hrecord' : right.defs.record? (left.twin right definition) = some record') :
    record'.nature = { record.nature with token := record'.nature.token } ∧
      record'.details = record.details.rename (left.twin right) ∧ record'.body = record.body := by
  have hmade' := hleft.made_twin hrooted hright hmade
  have hsupplied := hleft.resolving.supplied _ _ hmade
  have hsupplied' := hright.resolving.supplied _ _ hmade'
  have hnew {found : Definition} (hnot : ¬ state.world.defs.Issued found) :
      state.world.defs.record? found = none :=
    Option.eq_none_iff_forall_ne_some.mpr fun _ hfound =>
      hnot (Definitions.issued_of_record hfound)
  refine ⟨?_, ?_, ?_⟩
  · obtain ⟨holder, _, hholder, hother, hnature⟩ := hsupplied.rendered
    obtain ⟨holder', _, hholder', hother', hnature'⟩ := hsupplied'.rendered
    cases hrecord.symm.trans hother
    cases hrecord'.symm.trans hother'
    cases hholder.symm.trans hholder'
    rw [hnature', hnature]
    rfl
  · have hmemo : state.session.resolved.get? declaration = none := by
      refine Option.eq_none_iff_forall_ne_some.mpr fun known hknown => ?_
      have hfinds := hsupplied.missing
      simp [SessionState.finds?, hknown] at hfinds
    refine hleft.details_twin hrooted hright hmemo (hleft.resolving.sound.made _ hmade)
      (hright.resolving.sound.made _ hmade') ?_ hrecord hrecord'
    rw [SessionState.original, SessionState.original, hnew hsupplied.new, hnew hsupplied'.new]
  · obtain ⟨_, hother, hbare⟩ := hleft.tended.bare _ _ hmade
    obtain ⟨_, hother', hbare'⟩ := hright.tended.bare _ _ hmade'
    cases hrecord.symm.trans hother
    cases hrecord'.symm.trans hother'
    exact hbare'.trans hbare.symm

/-- What is listed in the end is the same on both sides, but for the order of what is new. -/
theorem Completed.members_twin (hhas : left.defs.has definition = true) (kind : SymbolKind) :
    ∃ added added', left.defs.members definition kind =
        state.world.defs.members definition kind ++ added ∧
      right.defs.members (left.twin right definition) kind =
        state.world.defs.members definition kind ++ added' ∧
      added'.Perm (added.map (left.twin right)) := by
  have hparallel := hleft.parallel hrooted hright
  have hparallel' := hright.parallel hrooted hleft
  have hshared := hleft.shared hright hhas
  obtain hhas | ⟨declaration, hmade⟩ := hleft.resolving.there definition hhas
  · rw [hparallel.twin_of_issued (Definitions.issued_of_has hhas)]
    obtain ⟨added, hlist, hnodup, hadded⟩ := hleft.resolving.lists definition kind
    obtain ⟨added', hlist', hnodup', hadded'⟩ := hright.resolving.lists definition kind
    refine ⟨added, added', hlist, hlist', ?_⟩
    have hexists (item : Definition) (hmem : item ∈ added) : left.defs.has item = true := by
      obtain ⟨declaration, hmade, -⟩ := (hadded item).mp hmem
      exact hleft.resolving.sound.has_answer (hleft.resolving.sound.made _ hmade)
    refine (List.perm_ext_iff_of_nodup hnodup' ?_).mpr fun item => ?_
    · exact List.Nodup.map_on (fun item hmem item' hmem' heq =>
        hparallel.twin_injective hparallel' (hleft.shared hright (hexists item hmem))
          (hleft.shared hright (hexists item' hmem')) heq) hnodup
    · simp only [hadded', List.mem_map, hadded]
      constructor
      · rintro ⟨declaration, hmade, hplace⟩
        have hback := hright.shared hleft (hright.resolving.sound.has_answer
          (hright.resolving.sound.made _ hmade))
        exact ⟨right.twin left item, ⟨declaration, hright.made_twin hrooted hleft hmade, hplace⟩,
          hparallel'.twin_twin hparallel hback⟩
      · rintro ⟨item, ⟨declaration, hmade, hplace⟩, rfl⟩
        exact ⟨declaration, hleft.made_twin hrooted hright hmade, hplace⟩
  · have hmember := (hleft.resolving.supplied _ _ hmade).member
    have hkind := hleft.resolving.sound.kinds _ _ (hleft.resolving.sound.made _ hmade)
    have htwin := hparallel.kind_twin hshared
    have hnone {defs : Definitions} {found : Definition} (hsame : found.kind = declaration.kind) :
        defs.members found kind = [] :=
      Definitions.members_of_member (hsame ▸ hmember)
    exact ⟨[], [], by simp [hnone hkind], by simp [hnone hkind, hnone (htwin.trans hkind)], .nil⟩

/-- What is remembered in the end corresponds. -/
theorem Completed.resolved_twin (hidle : left.stack = []) (hidle' : right.stack = [])
    (declaration : Declaration) : right.session.resolved.get? declaration =
      (left.session.resolved.get? declaration).map (left.twin right) := by
  have hanswer (declaration : Declaration) :
      left.answer declaration = left.session.resolved.get? declaration := by
    simp [answer, hidle]
  have hanswer' (declaration : Declaration) :
      right.answer declaration = right.session.resolved.get? declaration := by
    simp [answer, hidle']
  have hsome {found found' : Definition} (hknown : left.session.resolved.get? declaration = some found)
      (hknown' : right.session.resolved.get? declaration = some found') :
      right.session.resolved.get? declaration =
        (left.session.resolved.get? declaration).map (left.twin right) := by
    rw [hknown, hknown', Option.map_some]
    rw [← hanswer] at hknown
    rw [← hanswer'] at hknown'
    rw [(hleft.parallel hrooted hright).twin_answer hknown hknown']
  cases hmemo : state.session.resolved.get? declaration with
  | some known =>
      exact hsome (hleft.resolving.later.remembered _ _ hmemo)
        (hright.resolving.later.remembered _ _ hmemo)
  | none =>
      by_cases hasked : asked declaration
      · obtain ⟨found, hknown⟩ := hleft.remembered declaration hasked
        obtain ⟨found', hknown'⟩ := hright.remembered declaration hasked
        exact hsome hknown hknown'
      · have hnone (found : Definition) (hknown : left.answer declaration = some found) : False :=
          hasked (hleft.resolving.asked_of_answer hknown hmemo).1
        have hnone' (found : Definition) (hknown : right.answer declaration = some found) : False :=
          hasked (hright.resolving.asked_of_answer hknown hmemo).1
        rw [← hanswer, ← hanswer', Option.eq_none_iff_forall_ne_some.mpr hnone,
          Option.eq_none_iff_forall_ne_some.mpr hnone', Option.map_none]

/-- Two sessions in which everything has been resolved end alike. -/
theorem Completed.alike (hidle : left.stack = []) (hidle' : right.stack = []) :
    state.Alike (left.twin right) left.state right.state where
  kept _ hissued := (hleft.parallel hrooted hright).twin_of_issued hissued
  kind _ hhas := (hleft.parallel hrooted hright).kind_twin (hleft.shared hright hhas)
  injective _ _ hhas hhas' heq := (hleft.parallel hrooted hright).twin_injective
    (hright.parallel hrooted hleft) (hleft.shared hright hhas) (hleft.shared hright hhas') heq
  onto definition := by
    constructor
    · intro hhas
      have hshared := hright.shared hleft hhas
      exact ⟨right.twin left definition, (hright.parallel hrooted hleft).has_twin hshared hhas,
        (hright.parallel hrooted hleft).twin_twin (hleft.parallel hrooted hright) hshared⟩
    · rintro ⟨other, hhas, rfl⟩
      exact (hleft.parallel hrooted hright).has_twin (hleft.shared hright hhas) hhas
  resolved := hleft.resolved_twin hrooted hright hidle hidle'
  records definition record hrecord := by
    have hhas : left.defs.has definition = true := Definitions.has_iff.mpr ⟨record, hrecord⟩
    obtain ⟨record', hrecord'⟩ := Definitions.has_iff.mp
      ((hleft.parallel hrooted hright).has_twin (hleft.shared hright hhas) hhas)
    refine ⟨record', hrecord', ?_⟩
    obtain hold | ⟨declaration, hmade⟩ := hleft.resolving.there definition hhas
    · rw [(hleft.parallel hrooted hright).twin_of_issued (Definitions.issued_of_has hold)] at hrecord'
      obtain ⟨hnature, hrest⟩ := hleft.record_old hrooted hright hold hrecord hrecord'
      exact ⟨by rw [hnature], hrest⟩
    · exact hleft.record_made hrooted hright hmade hrecord hrecord'
  tokens definition record record' hold hrecord hrecord' := by
    obtain ⟨hnature, -⟩ := hleft.record_old hrooted hright hold hrecord hrecord'
    rw [hnature]
  members _ kind hhas := hleft.members_twin hrooted hright hhas kind
  modules := hright.resolving.modules.trans hleft.resolving.modules.symm
  slots := hright.resolving.slots.trans hleft.resolving.slots.symm
  decls := hright.resolving.decls.trans hleft.resolving.decls.symm

end Alike

/-! ## Resolving members -/

open SessionTask

/-- Resolving all members either comes to an end or fails where something is wrong. -/
theorem resolveAll_on {nodes : List Declaration} (hrooted : state.Rooted asked)
    (hnodes : ∀ node, node ∈ nodes ↔ asked node ∧ node.kind.isScope = false) :
    (∃ done : Moment, (resolveAll nodes).on state = (.ok (), done.state) ∧
      Completed state asked done ∧ done.stack = []) ∨
    ∃ now : Moment, ∃ error, (resolveAll nodes).on state = (.error error, now.state) ∧
      Resolving state asked now ∧ Tended state now ∧ now.Fault error := by
  have hleads : Leads asked (some state.world.decls.count) { state } (resolveAll nodes) _ :=
    leads_resolveAll hrooted.sound rfl fun node hmem => ((hnodes node).mp hmem).1
  replace hleads := hleads hrooted.closed
  cases hon : (resolveAll nodes).on state with
  | mk outcome after =>
      rw [hon] at hleads
      cases outcome with
      | ok value =>
          obtain ⟨done, rfl, hrun, hidle, hanswers⟩ := hleads
          obtain ⟨hresolving, htended⟩ := hrun.tended hrooted
          refine .inl ⟨done, rfl, ⟨hresolving, htended, fun declaration hasked => ?_⟩, hidle⟩
          cases hscope : declaration.kind.isScope with
          | true =>
              obtain ⟨definition, hknown⟩ := hrooted.scopes declaration hasked hscope
              exact ⟨definition, hresolving.later.remembered _ _ hknown⟩
          | false =>
              obtain ⟨definition, hanswer⟩ :=
                hanswers declaration ((hnodes declaration).mpr ⟨hasked, hscope⟩)
              exact ⟨definition, by simpa [answer, hidle] using hanswer⟩
      | error error =>
          obtain ⟨now, rfl, -, hrun, hfault⟩ := hleads
          obtain ⟨hresolving, htended⟩ := hrun.tended hrooted
          refine .inr ⟨now, error, rfl, hresolving, htended, hfault ?_⟩
          rw [hresolving.decls]

end Moment

open SessionTask

/-- Members can be resolved in any order. -/
theorem resolveAll_perm {state : SessionState} {asked : Declaration → Prop}
    {nodes nodes' : List Declaration} (hrooted : state.Rooted asked) (hperm : nodes.Perm nodes')
    (hnodes : ∀ node, node ∈ nodes ↔ asked node ∧ node.kind.isScope = false) :
    (∃ twin left right, (resolveAll nodes).on state = (.ok (), left) ∧
      (resolveAll nodes').on state = (.ok (), right) ∧ state.Alike twin left right) ∨
    ∃ error error' left right, (resolveAll nodes).on state = (.error error, left) ∧
      (resolveAll nodes').on state = (.error error', right) := by
  have hnodes' (node : Declaration) :
      node ∈ nodes' ↔ asked node ∧ node.kind.isScope = false :=
    hperm.mem_iff.symm.trans (hnodes node)
  obtain ⟨left, hon, hleft, hidle⟩ | ⟨left, error, hon, hresolving, htended, hfault⟩ :=
    Moment.resolveAll_on hrooted hnodes <;>
  obtain ⟨right, hon', hright, hidle'⟩ | ⟨right, error', hon', hresolving', htended', hfault'⟩ :=
    Moment.resolveAll_on hrooted hnodes'
  · exact .inl ⟨_, _, _, hon, hon', hleft.alike hrooted hright hidle hidle'⟩
  · exact absurd hfault' (hleft.not_fault hrooted hresolving' htended')
  · exact absurd hfault (hright.not_fault hrooted hresolving htended)
  · exact .inr ⟨_, _, _, _, hon, hon'⟩

/-- A session in which all modules and types have been resolved. -/
theorem scoped_of_resolveAll {world : World} {source : SourceId} {nodes scopes : List Declaration}
    {state : SessionState} (hheld : world.defs.Held)
    (hsource : (world.source source).Sound world.defs) (hclosed : world.decls.Closed (· ∈ nodes))
    (hliving : ∀ node ∈ nodes, world.decls.has node = true)
    (hreferred : ∀ node ∈ nodes, ∀ target ∈ (world.decls.statement node).targets,
      ∀ other ∈ target.declared?, world.decls.has other = true)
    (hissued : ∀ node ∈ nodes, ∀ target ∈ (world.decls.statement node).targets,
      target.IssuedIn world.defs)
    (hscopes : ∀ node ∈ scopes, node ∈ nodes)
    (hall : ∀ node ∈ nodes, node.kind.isScope = true → node ∈ scopes)
    (hon : (resolveAll scopes).on ⟨{ source }, world⟩ = (.ok (), state))
    (hlinked : ∀ definition ∈ state.world.defs.all, ∀ record ∈ state.world.defs.record? definition,
      ∀ target ∈ record.details.targets, target.IssuedIn state.world.defs) :
    state.Scoped (· ∈ nodes) := by
  have hsound := Moment.sound_begin hheld hsource
  have hleads : Moment.Leads (· ∈ nodes) none (.begin source world) (resolveAll scopes) _ :=
    Moment.leads_resolveAll hsound rfl hscopes
  replace hleads := hleads hclosed
  rw [show (Moment.begin source world).state = ⟨{ source }, world⟩ from rfl, hon] at hleads
  obtain ⟨done, rfl, hrun, hidle, hanswers⟩ := hleads
  have hlater := hrun.later hsound
  have hdecls : done.state.world.decls = world.decls := hlater.decls
  have hstart : (Moment.begin source world).stack = [] := rfl
  refine
    { sound := (hrun.sound hsound).plain
      closed := hdecls ▸ hclosed
      living := hdecls ▸ hliving
      referred := fun node other hmem htarget => ?_
      scopes := fun node hmem hscope => ?_
      issued := fun node target hmem htarget => ?_
      linked := fun definition record target hrecord htarget => ?_ }
  · rw [hdecls] at htarget ⊢
    exact hreferred node hmem _ htarget other rfl
  · obtain ⟨definition, hanswer⟩ := hanswers node (hall node hmem hscope)
    exact ⟨definition, by simpa [Moment.answer, hidle, hstart] using hanswer⟩
  · have hissued := hissued node hmem target (hdecls ▸ htarget)
    cases target with
    | definition found => exact hlater.grows.issued _ hissued
    | declaration | unknown => trivial
  · exact hlinked definition (Definitions.mem_all (Definitions.has_iff.mpr ⟨record, hrecord⟩)) record
      hrecord target htarget

/-- A type with a method, and declarations of a property that is missing, of its missing getter,
which overrides the method, and of the method. -/
def World.gauge : World :=
  let (module, defs) := ({} : Definitions).makeModule { name := "Game" }
  let (type, defs) := defs.addType module { namespaceName := "Core", name := "Clock", flags := 1 }
  let signature : MethodSig := ⟨32, 0, .primitive .int32, [], []⟩
  { defs := (defs.addMethod type { name := "Read", flags := 198, signature }).2
    decls :=
      { modules := ⟨#[some { terms := ⟨.failIfMissing, false⟩, name := "Game", types := [⟨0⟩] }]⟩
        types := ⟨#[some
          { terms := ⟨.failIfMissing, false⟩
            place := .topLevel ⟨0⟩ "Core"
            name := "Clock"
            methods := [⟨0⟩, ⟨1⟩]
            properties := [⟨0⟩] }]⟩
        methods := ⟨#[
          some { terms := ⟨.failIfMissing, false⟩, owner := ⟨0⟩, name := "Read", signature },
          some
            { terms := ⟨.createIfMissing, false⟩
              owner := ⟨0⟩
              name := "get_Now"
              signature
              overrides := [⟨.declared ⟨1⟩, .declared ⟨0⟩⟩] }]⟩
        properties := ⟨#[some
          { terms := ⟨.failIfPresent, false⟩
            owner := ⟨0⟩
            name := "Now"
            signature := ⟨true, .primitive .int32, []⟩
            accessors := [(.getter, ⟨1⟩)] }]⟩ }
    sources := ⟨#[some (.memory ⟨[("Game", ⟨0⟩)]⟩ {})]⟩ }

theorem resolveAll_perm_gauge : ∃ state twin left right,
    (resolveAll [.module ⟨0⟩, .type ⟨0⟩]).on ⟨{ source := ⟨0⟩ }, .gauge⟩ = (.ok (), state) ∧
      (resolveAll [.method ⟨0⟩, .method ⟨1⟩, .property ⟨0⟩]).on state = (.ok (), left) ∧
      (resolveAll [.property ⟨0⟩, .method ⟨1⟩, .method ⟨0⟩]).on state = (.ok (), right) ∧
      state.Alike twin left right := by
  let nodes : List Declaration := [.module ⟨0⟩, .type ⟨0⟩, .method ⟨0⟩, .method ⟨1⟩, .property ⟨0⟩]
  let start : SessionState := ⟨{ source := ⟨0⟩ }, .gauge⟩
  let state := ((resolveAll [.module ⟨0⟩, .type ⟨0⟩]).on start).2
  have hon : (resolveAll [.module ⟨0⟩, .type ⟨0⟩]).on start = (.ok (), state) := by
    have hok : ((resolveAll [.module ⟨0⟩, .type ⟨0⟩]).on start).1 = .ok () := by decide +kernel
    exact Prod.ext hok rfl
  have hscoped : state.Scoped (· ∈ nodes) := by
    refine scoped_of_resolveAll ?_ (Source.sound_memory ?_) ?_ ?_ ?_ ?_ ?_ ?_ hon ?_ <;> decide +kernel
  have hsingle : ∀ left ∈ nodes, ∀ right ∈ nodes, state.session.resolved.get? left = none →
      state.session.resolved.get? right = none → ∀ definition ∈ state.finds? left,
      state.finds? right = some definition → left = right := by
    decide +kernel
  have hapart : ∀ left ∈ nodes, ∀ right ∈ nodes, left.kind.isScope = false → left.kind = right.kind →
      state.finds? left = none → state.session.resolved.get? right = none →
      ∀ holder ∈ state.holder? left, state.holder? right = some holder →
      state.Describes right (state.nature left holder none) → left = right := by
    decide +kernel
  have hrooted : state.Rooted (· ∈ nodes) :=
    { hscoped with
      single := fun left right definition hleft hright hmemo hmemo' hfinds =>
        hsingle left hleft right hright hmemo hmemo' definition hfinds
      apart := fun left right holder hleft hright hmember hkind hnone hmemo hholder =>
        hapart left hleft right hright hmember hkind hnone hmemo holder hholder }
  have hok : ((resolveAll [.method ⟨0⟩, .method ⟨1⟩, .property ⟨0⟩]).on state).1 = .ok () := by
    decide +kernel
  have hmembers (node : Declaration) : node ∈ [Declaration.method ⟨0⟩, .method ⟨1⟩, .property ⟨0⟩] ↔
      node ∈ nodes ∧ node.kind.isScope = false := by
    cases node <;> simp [nodes, Declaration.kind, SymbolKind.isScope]
  obtain ⟨twin, left, right, hleft, hright, halike⟩ | ⟨error, _, _, _, hfails, -⟩ :=
    resolveAll_perm hrooted
      (List.reverse_perm [Declaration.method ⟨0⟩, .method ⟨1⟩, .property ⟨0⟩]).symm hmembers
  · exact ⟨state, twin, left, right, hon, hleft, hright, halike⟩
  · rw [hfails] at hok
    cases hok

/-- Declarations of a missing field in each of the two modules that list its type: one requires it,
the other one makes it. -/
def World.contested : World :=
  let types : List TypeDecl :=
    [{ terms := ⟨.failIfMissing, false⟩
       place := .topLevel ⟨0⟩ "Core"
       name := "Clock"
       fields := [⟨0⟩] },
      { terms := ⟨.failIfMissing, false⟩
        place := .topLevel ⟨1⟩ "Core"
        name := "Clock"
        fields := [⟨1⟩] }]
  let fields : List FieldDecl :=
    [{ terms := ⟨.failIfMissing, false⟩
       owner := ⟨0⟩
       name := "ticks"
       signature := .primitive .int32 },
      { terms := ⟨.createIfMissing, false⟩
        owner := ⟨1⟩
        name := "ticks"
        signature := .primitive .int32 }]
  { World.joint with
    decls :=
      { World.joint.decls with
        types := ⟨(types.map some).toArray⟩
        fields := ⟨(fields.map some).toArray⟩ } }

/-- Where two declarations are about the same member, their order decides whether it can be
resolved. -/
theorem member_contested :
    ¬ ∀ (state : SessionState) (asked : Declaration → Prop) (nodes nodes' : List Declaration),
      state.Scoped asked → nodes.Perm nodes' →
      (∀ node, node ∈ nodes ↔ asked node ∧ node.kind.isScope = false) →
      ∀ left, (resolveAll nodes).on state = (.ok (), left) →
        ∃ right, (resolveAll nodes').on state = (.ok (), right) := by
  intro h
  let scopes : List Declaration := [.module ⟨0⟩, .type ⟨0⟩, .module ⟨1⟩, .type ⟨1⟩]
  let nodes : List Declaration := scopes ++ [.field ⟨0⟩, .field ⟨1⟩]
  let start : SessionState := ⟨{ source := ⟨0⟩ }, .contested⟩
  let state := ((resolveAll scopes).on start).2
  have hon : (resolveAll scopes).on start = (.ok (), state) := by
    have hok : ((resolveAll scopes).on start).1 = .ok () := by decide +kernel
    exact Prod.ext hok rfl
  have hscoped : state.Scoped (· ∈ nodes) := by
    refine scoped_of_resolveAll ?_ (Source.sound_memory ?_) ?_ ?_ ?_ ?_ ?_ ?_ hon ?_ <;> decide +kernel
  have hmembers (node : Declaration) : node ∈ [Declaration.field ⟨1⟩, .field ⟨0⟩] ↔
      node ∈ nodes ∧ node.kind.isScope = false := by
    cases node <;> simp [nodes, scopes, Declaration.kind, SymbolKind.isScope, or_comm]
  have hmade : ((resolveAll [.field ⟨1⟩, .field ⟨0⟩]).on state).1 = .ok () := by decide +kernel
  have hfails : ((resolveAll [.field ⟨0⟩, .field ⟨1⟩]).on state).1.isOk = false := by decide +kernel
  clear_value state
  have hswap := List.reverse_perm [Declaration.field ⟨0⟩, .field ⟨1⟩]
  cases hleft : (resolveAll [.field ⟨1⟩, .field ⟨0⟩]).on state with
  | mk outcome left =>
      rw [hleft] at hmade
      cases hmade
      obtain ⟨right, hright⟩ := h state _ _ _ hscoped hswap hmembers left hleft
      rw [hright] at hfails
      cases hfails

end Graft
