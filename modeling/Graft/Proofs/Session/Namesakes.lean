import Graft.Proofs.Session.Orderly
import Mathlib.Data.Fintype.Card

/-!
# Types and their namesakes

What a declared type stands for lies in the list of what the declaration around it stands for, under
the declared name, and so on all the way out (`Namesake`). Every session keeps it that way
(`Run.eponymous`), whatever it gives up on the way, and it stays that way as long as what the session
holds does (`Session.Keeps`). Where each type that is listed names the scope that lists it, such a
definition has the full name of the declaration (`Namesake.typeName_eq`).
-/

namespace Graft

/-- Whether a type is declared, and with it every type around it. -/
inductive Declarations.Enclosed (decls : Declarations) : DeclId .type → Prop where
  | top {id : DeclId .type} {module : DeclId .module} {namespaceName : String}
      (hhas : decls.has (.type id) = true)
      (hplace : (decls.type id).place = .topLevel module namespaceName) : Enclosed decls id
  | inside {id outer : DeclId .type} (hhas : decls.has (.type id) = true)
      (hplace : (decls.type id).place = .nested outer) (houter : Enclosed decls outer) :
      Enclosed decls id

theorem Declarations.Enclosed.has {decls : Declarations} {id : DeclId .type}
    (h : decls.Enclosed id) : decls.has (.type id) = true := by
  cases h with
  | top hhas | inside hhas => exact hhas

/-- Whether every type that is listed names the scope that lists it: in the list of a type that
type, in the list of a module none. -/
def Definitions.Housed (defs : Definitions) : Prop :=
  ∀ holder id, .type id ∈ defs.members holder .type →
    (defs.type id).owner = Moment.ownerIn holder

/-- A type that a module lists is nested in nothing. -/
theorem Definitions.Housed.outer?_eq_none {defs : Definitions} (h : defs.Housed)
    {id : DefId .type} {module : DefId .module}
    (hmem : .type id ∈ defs.members (.module module) .type) : defs.outer? id = none := by
  rw [outer?, h _ _ hmem]
  rfl

/-- A type that a type lists is nested in that one. -/
theorem Definitions.Housed.outer?_eq_some {defs : Definitions} (h : defs.Housed)
    {id owner : DefId .type} (hmem : .type id ∈ defs.members (.type owner) .type) :
    defs.outer? id = some owner := by
  have howner : defs.types.has owner.index = true := has_of_mem_members hmem
  rw [outer?, h _ _ hmem, Moment.ownerIn, Option.filter_some, if_pos howner]

theorem Definitions.WellFormed.housed {defs : Definitions} (h : defs.WellFormed) : defs.Housed := by
  intro holder id hmem
  obtain ⟨record, hrecord, hlies⟩ := h.linked holder .type (.type id) hmem
  cases (record?_type (h.held _ _ _ hmem)).symm.trans hrecord
  cases holder with
  | module => exact hlies.1
  | type => exact hlies
  | field | method | property | event => exact hlies.elim

/-- Whether a session holds a definition: it works on the module, has resolved something to the
definition, or holds what lists it. -/
inductive Session.Holds (session : Session) (defs : Definitions) : Definition → Prop where
  | module {name : String} {module : DefId .module}
      (hmodule : session.modules.get? name = some module) : Holds session defs (.module module)
  | resolved {declaration : Declaration} {definition : Definition}
      (hresolved : session.resolved.get? declaration = some definition) :
      Holds session defs definition
  | listed {holder definition : Definition} {kind : SymbolKind}
      (hholder : Holds session defs holder) (hmem : definition ∈ defs.members holder kind) :
      Holds session defs definition

/-- Whether what a session holds stays what it is, with lists that get longer at the end only. -/
def Session.Keeps (session : Session) (defs defs' : Definitions) : Prop :=
  ∀ definition record, session.Holds defs definition → defs.record? definition = some record →
    ∃ record', defs'.record? definition = some record' ∧ record'.nature = record.nature ∧
      ∀ kind, record.members kind <+: record'.members kind

namespace Session.Keeps

variable {session : Session} {defs defs' : Definitions} {definition holder : Definition}

theorem of_grows (h : defs.Grows defs') : session.Keeps defs defs' :=
  fun definition record _ hrecord => h.kept definition record hrecord

theorem has (h : session.Keeps defs defs') (hholds : session.Holds defs definition)
    (hhas : defs.has definition = true) : defs'.has definition = true := by
  obtain ⟨record, hrecord⟩ := Definitions.has_iff.mp hhas
  obtain ⟨record', hrecord', -⟩ := h definition record hholds hrecord
  exact Definitions.has_iff.mpr ⟨record', hrecord'⟩

theorem mem_members (h : session.Keeps defs defs') (hholds : session.Holds defs holder)
    {kind : SymbolKind} (hmem : definition ∈ defs.members holder kind) :
    definition ∈ defs'.members holder kind := by
  obtain ⟨record, hrecord, hmem⟩ := Definitions.exists_of_mem_members hmem
  obtain ⟨record', hrecord', -, hmembers⟩ := h holder record hholds hrecord
  exact (Definitions.mem_members hrecord').mpr ((hmembers kind).subset hmem)

theorem type_nature (h : session.Keeps defs defs') {id : DefId .type}
    (hholds : session.Holds defs (.type id)) (hhas : defs.has (.type id) = true) :
    (defs'.type id).record.nature = (defs.type id).record.nature := by
  obtain ⟨record', hrecord', hnature, -⟩ := h _ _ hholds (Definitions.record?_type hhas)
  cases (Definitions.record?_type (h.has hholds hhas)).symm.trans hrecord'
  exact hnature

end Session.Keeps

/-- Whether a definition lies where a type is declared, under the name that is declared, and what is
around the one does so for what is around the other, `depth` times, out to a module that the session
works on. -/
inductive Namesake (decls : Declarations) (session : Session) (defs : Definitions) :
    Nat → DeclId .type → DefId .type → Prop where
  | top {id : DeclId .type} {found : DefId .type} {module : DeclId .module}
      {name namespaceName : String} {holder : DefId .module}
      (hhas : decls.has (.type id) = true)
      (hplace : (decls.type id).place = .topLevel module namespaceName)
      (hfound : defs.has (.type found) = true)
      (hmem : .type found ∈ defs.members (.module holder) .type)
      (hname : (defs.type found).name = (decls.type id).name)
      (hspace : (defs.type found).namespaceName = namespaceName)
      (hmodule : session.modules.get? name = some holder) : Namesake decls session defs 0 id found
  | inside {depth : Nat} {id outer : DeclId .type} {found owner : DefId .type}
      (hhas : decls.has (.type id) = true)
      (hplace : (decls.type id).place = .nested outer)
      (hfound : defs.has (.type found) = true)
      (hmem : .type found ∈ defs.members (.type owner) .type)
      (hname : (defs.type found).name = (decls.type id).name)
      (houter : Namesake decls session defs depth outer owner) :
      Namesake decls session defs (depth + 1) id found

namespace Namesake

variable {decls decls' : Declarations} {session session' : Session} {defs defs' : Definitions}
  {depth depth' : Nat} {id : DeclId .type} {found found' : DefId .type}

theorem has (h : Namesake decls session defs depth id found) :
    decls.has (.type id) = true ∧ defs.has (.type found) = true := by
  cases h with
  | top hhas _ hfound | inside hhas _ hfound => exact ⟨hhas, hfound⟩

theorem holds (h : Namesake decls session defs depth id found) :
    session.Holds defs (.type found) := by
  induction h with
  | top _ _ _ hmem _ _ hmodule => exact .listed (.module hmodule) hmem
  | inside _ _ _ hmem _ _ ih => exact .listed ih hmem

theorem keeps (h : Namesake decls session defs depth id found) (hkeeps : session.Keeps defs defs')
    (hmodules : ∀ name module, session.modules.get? name = some module →
      session'.modules.get? name = some module) : Namesake decls session' defs' depth id found := by
  have hnature := hkeeps.type_nature h.holds h.has.2
  have hfound := hkeeps.has h.holds h.has.2
  induction h with
  | top hhas hplace _ hmem hname hspace hmodule =>
      exact .top hhas hplace hfound (hkeeps.mem_members (.module hmodule) hmem)
        ((congrArg Nature.name hnature).trans hname)
        ((congrArg Nature.namespaceName hnature).trans hspace) (hmodules _ _ hmodule)
  | inside hhas hplace _ hmem hname houter ih =>
      exact .inside hhas hplace hfound (hkeeps.mem_members houter.holds hmem)
        ((congrArg Nature.name hnature).trans hname)
        (ih (hkeeps.type_nature houter.holds houter.has.2) (hkeeps.has houter.holds houter.has.2))

/-- Declarations other than those around a type have no part in what has its name. -/
theorem redeclared (h : Namesake decls session defs depth id found) (henclosed : decls'.Enclosed id)
    (hkept : ∀ id, decls.has (.type id) = true → decls'.has (.type id) = true →
      (decls'.type id).place = (decls.type id).place ∧
        (decls'.type id).name = (decls.type id).name) :
    Namesake decls' session defs depth id found := by
  induction h with
  | top hhas hplace hfound hmem hname hspace hmodule =>
      obtain ⟨hplace', hname'⟩ := hkept _ hhas henclosed.has
      exact .top henclosed.has (hplace'.trans hplace) hfound hmem (hname.trans hname'.symm) hspace
        hmodule
  | inside hhas hplace hfound hmem hname _ ih =>
      obtain ⟨hplace', hname'⟩ := hkept _ hhas henclosed.has
      rw [hplace] at hplace'
      refine .inside henclosed.has hplace' hfound hmem (hname.trans hname'.symm) (ih ?_)
      cases henclosed with
      | top _ hplace => cases hplace.symm.trans hplace'
      | inside _ hplace houter =>
          cases hplace.symm.trans hplace'
          exact houter

/-! ## How deep types are nested -/

/-- There is something on every level of the way out. -/
theorem exists_level (h : Namesake decls session defs depth id found) {level : Nat}
    (hlevel : level ≤ depth) : ∃ id found, Namesake decls session defs level id found := by
  induction h with
  | top hhas hplace hfound hmem hname hspace hmodule =>
      obtain rfl := Nat.le_zero.mp hlevel
      exact ⟨_, _, .top hhas hplace hfound hmem hname hspace hmodule⟩
  | inside hhas hplace hfound hmem hname houter ih =>
      rcases Nat.le_succ_iff.mp hlevel with hlevel | rfl
      · exact ih hlevel
      · exact ⟨_, _, .inside hhas hplace hfound hmem hname houter⟩

/-- If what is on different levels has different numbers, the levels are fewer than the numbers. -/
theorem depth_lt (h : Namesake decls session defs depth id found) {bound : Nat}
    (number : DeclId .type → DefId .type → Nat)
    (hbound : ∀ {level id found}, Namesake decls session defs level id found →
      number id found < bound)
    (hapart : ∀ {level id found level' id' found'}, Namesake decls session defs level id found →
      Namesake decls session defs level' id' found' → number id found = number id' found' →
        level = level') : depth < bound := by
  -- One number for each level, all of them different, so there are no more levels than numbers.
  choose ids founds hlevels using fun level : Fin (depth + 1) =>
    h.exists_level (Nat.le_of_lt_succ level.isLt)
  let numbers (level : Fin (depth + 1)) : Fin bound :=
    ⟨number (ids level) (founds level), hbound (hlevels level)⟩
  have hinjective : Function.Injective numbers := fun level level' heq =>
    Fin.ext (hapart (hlevels level) (hlevels level') (Fin.mk.inj heq))
  have hcard := Fintype.card_le_of_injective numbers hinjective
  rw [Fintype.card_fin, Fintype.card_fin] at hcard
  exact hcard

theorem depth_eq (h : Namesake decls session defs depth id found)
    (h' : Namesake decls session defs depth' id found') : depth = depth' := by
  induction h generalizing depth' found' with
  | top _ hplace =>
      cases h' with
      | top => rfl
      | inside _ hplace' => cases hplace.symm.trans hplace'
  | inside _ hplace _ _ _ _ ih =>
      cases h' with
      | top _ hplace' => cases hplace.symm.trans hplace'
      | inside _ hplace' _ _ _ houter =>
          cases hplace.symm.trans hplace'
          rw [ih houter]

/-- No declared type is nested as deep as there are types. -/
theorem depth_lt_decls (h : Namesake decls session defs depth id found) :
    depth < decls.types.next := by
  refine h.depth_lt (fun id _ => id.index) (fun hlevel => Table.lt_next_of_has hlevel.has.1) ?_
  rintro level ⟨index⟩ found level' ⟨_⟩ found' hlevel hlevel' rfl
  exact hlevel.depth_eq hlevel'

/-! ## Full names -/

section Housed

variable (hhoused : defs.Housed)

include hhoused

/-- What has the name of a type at top level is nested in nothing. -/
theorem outer?_zero (h : Namesake decls session defs 0 id found) : defs.outer? found = none := by
  cases h with
  | top _ _ _ hmem => exact hhoused.outer?_eq_none hmem

/-- What has the name of a nested type is nested in what has the name of the type around it. -/
theorem outer?_succ (h : Namesake decls session defs (depth + 1) id found) :
    ∃ outer owner, (decls.type id).place = .nested outer ∧ defs.outer? found = some owner ∧
      Namesake decls session defs depth outer owner := by
  cases h with
  | inside _ hplace _ hmem _ houter => exact ⟨_, _, hplace, hhoused.outer?_eq_some hmem, houter⟩

theorem depth_eq_of_found {id' : DeclId .type} (h : Namesake decls session defs depth id found)
    (h' : Namesake decls session defs depth' id' found) : depth = depth' := by
  induction depth generalizing depth' id id' found with
  | zero =>
      cases depth' with
      | zero => rfl
      | succ depth' =>
          obtain ⟨_, _, -, houter, -⟩ := h'.outer?_succ hhoused
          cases (h.outer?_zero hhoused).symm.trans houter
  | succ depth ih =>
      obtain ⟨_, _, -, houter, h⟩ := h.outer?_succ hhoused
      cases depth' with
      | zero => cases (h'.outer?_zero hhoused).symm.trans houter
      | succ depth' =>
          obtain ⟨_, _, -, houter', h'⟩ := h'.outer?_succ hhoused
          cases houter.symm.trans houter'
          rw [ih h h']

/-- No defined type is nested as deep as there are types. -/
theorem depth_lt_defs (h : Namesake decls session defs depth id found) :
    depth < defs.types.next := by
  refine h.depth_lt (fun _ found => found.index)
    (fun hlevel => Table.lt_next_of_has hlevel.has.2) ?_
  rintro level id ⟨index⟩ level' id' ⟨_⟩ hlevel hlevel' rfl
  exact hlevel.depth_eq_of_found hhoused hlevel'

theorem typeNameWithin_eq (h : Namesake decls session defs depth id found) {fuel fuel' : Nat}
    (hfuel : depth < fuel) (hfuel' : depth < fuel') :
    defs.typeNameWithin fuel found = decls.typeNameWithin fuel' id := by
  induction h generalizing fuel fuel' with
  | top _ hplace _ hmem hname hspace =>
      obtain ⟨fuel, rfl⟩ := Nat.exists_eq_succ_of_ne_zero (Nat.ne_of_gt hfuel)
      obtain ⟨fuel', rfl⟩ := Nat.exists_eq_succ_of_ne_zero (Nat.ne_of_gt hfuel')
      simp only [Definitions.typeNameWithin, hhoused.outer?_eq_none hmem,
        Declarations.typeNameWithin, hplace, hname, hspace]
  | @inside _ _ outer _ _ _ hplace _ hmem hname houter ih =>
      obtain ⟨fuel, rfl⟩ := Nat.exists_eq_succ_of_ne_zero (by omega : fuel ≠ 0)
      obtain ⟨fuel', rfl⟩ := Nat.exists_eq_succ_of_ne_zero (by omega : fuel' ≠ 0)
      have hdeclared : decls.types.has outer.index = true := houter.has.1
      rw [Definitions.typeNameWithin, hhoused.outer?_eq_some hmem, Declarations.typeNameWithin,
        hplace]
      dsimp only
      rw [if_pos hdeclared, hname, ih (by omega : _ < fuel) (by omega : _ < fuel')]

/-- What has the name of a declared type all the way out has its full name. -/
theorem typeName_eq (h : Namesake decls session defs depth id found) :
    defs.typeName found = decls.typeName id :=
  h.typeNameWithin_eq hhoused (h.depth_lt_defs hhoused) h.depth_lt_decls

end Housed

end Namesake

namespace Moment

variable {asked : Declaration → Prop} {mode : Mode} {now next : Moment}
  {declaration : Declaration} {definition : Definition} {rest : InFlight} {id : DeclId .type}
  {found : DefId .type}

/-- Whether every declared module stands for one that the session works on, and every declared type
for what has its name, as long as the types around it are declared. -/
structure Eponymous (now : Moment) : Prop where
  modules : ∀ id module, now.answer (.module id) = some (.module module) →
    ∃ name, now.session.modules.get? name = some module
  types : ∀ id found, now.answer (.type id) = some (.type found) → now.decls.Enclosed id →
    ∃ depth, Namesake now.decls now.session now.defs depth id found

/-- What is in its place has the name that is declared, if what is around it has. -/
theorem Placed.namesake (hsound : now.Sound) (h : now.Placed (.type id) (.type found))
    (henclosed : now.decls.Enclosed id)
    (hmodules : ∀ id module, now.answer (.module id) = some (.module module) →
      ∃ name, now.session.modules.get? name = some module)
    (houter : ∀ outer owner, (now.decls.type id).place = .nested outer →
      now.answer (.type outer) = some (.type owner) →
        ∃ depth, Namesake now.decls now.session now.defs depth outer owner) :
    ∃ depth, Namesake now.decls now.session now.defs depth id found := by
  cases h with
  | @member _ parent _ holder hparent hholder hmem hmatches =>
      have hkind := hsound.kinds _ _ hholder
      have hfound := hsound.held _ _ _ hmem
      obtain ⟨record, hrecord, hname, hspace, -⟩ := hmatches
      cases (Definitions.record?_type hfound).symm.trans hrecord
      cases henclosed with
      | top hhas hplace =>
          have hnone : now.decls.outer? id = none := by simp [Declarations.outer?, hplace]
          simp only [Declarations.parent?, hnone] at hparent
          obtain ⟨module, -, rfl⟩ := Option.map_eq_some_iff.mp hparent
          cases holder with
          | module holder =>
              obtain ⟨name, hmodule⟩ := hmodules _ _ hholder
              refine ⟨0, .top hhas hplace hfound hmem hname ?_ hmodule⟩
              refine (hspace (.module module) ?_ rfl).trans ?_
              · simp only [Declarations.parent?, hnone, hparent]
              · simp [Declarations.statement, TypeDecl.namespaceName?, hplace]
          | type | field | method | property | event => cases hkind
      | @inside _ outer hhas hplace henclosed =>
          have hdeclared : now.decls.types.has outer.index = true := henclosed.has
          have hsome : now.decls.outer? id = some outer := by
            simp [Declarations.outer?, hplace, hdeclared]
          simp only [Declarations.parent?, hsome, Option.some.injEq] at hparent
          subst hparent
          cases holder with
          | type owner =>
              obtain ⟨depth, hnamesake⟩ := houter outer owner hplace hholder
              exact ⟨depth + 1, .inside hhas hplace hfound hmem hname hnamesake⟩
          | module | field | method | property | event => cases hkind

/-- What a step finds out, it finds in its place. -/
theorem Step.known_or_placed (hstep : Step asked mode now next) (hsound : now.Sound)
    (hanswer : next.answer declaration = some definition) :
    now.answer declaration = some definition ∨ next.Placed declaration definition := by
  -- An answer for a declaration that had none takes nothing away from the others.
  have hextends {stack : InFlight} {top : Declaration} {located : Definition}
      (hstack : now.stack = (top, none) :: stack) :
      now.answer.Extends (now.withStack ((top, some located) :: stack)).answer := by
    intro other known hknown
    rw [hsound.answer_locate hstack, if_neg fun heq => ?_]
    · exact hknown
    · cases (hsound.answer_pending (heq ▸ hstack)).symm.trans hknown
  cases hstep with
  | quiet | load | confirm | amend | hide | graft => exact .inl hanswer
  | enter hasked hmemo hstack =>
      rw [answer_enter hstack] at hanswer
      exact .inl hanswer
  | @makeModule id rest name hstack hasked hwritable hname =>
      replace hanswer := (hsound.answer_locate hstack declaration).symm.trans hanswer
      split at hanswer
      · rename_i heq
        cases heq
        cases hanswer
        exact .inr (.module (by simp [hname]))
      · exact .inl hanswer
  | create hstack hasked hwritable hpolicy hmissing hparent hholder hkind hrenders hadds =>
      replace hanswer := (hsound.answer_locate hstack declaration).symm.trans hanswer
      split at hanswer
      · rename_i heq
        cases heq
        cases hanswer
        refine .inr (.member hparent (hextends hstack _ _ hholder) ?_
          ((hrenders.matches hadds).mono rfl (hextends hstack)))
        exact (hadds.mem_members hrenders.members).mpr
          (.inr ⟨rfl, hkind.symm, rfl, hsound.has_answer hholder⟩)
      · exact .inl hanswer
  | locate hstack hasked hpolicy hfound =>
      replace hanswer := (hsound.answer_locate hstack declaration).symm.trans hanswer
      split at hanswer
      · rename_i heq
        cases heq
        cases hanswer
        exact .inr (hfound.placed.mono rfl (hextends hstack))
      · exact .inl hanswer
  | remember hstack =>
      rw [hsound.answer_remember hstack] at hanswer
      exact .inl hanswer
  | abandon hfails hstack =>
      rw [withMade_answer, hsound.answer_abandon hstack] at hanswer
      split at hanswer
      · cases hanswer
      · exact .inl hanswer

theorem Step.eponymous (hstep : Step asked mode now next) (hsound : now.Sound) (h : now.Eponymous) :
    next.Eponymous := by
  have hlater := hstep.later hsound
  have hmodules (id : DeclId .module) (module : DefId .module)
      (hanswer : next.answer (.module id) = some (.module module)) :
      ∃ name, next.session.modules.get? name = some module := by
    obtain hknown | hplaced := hstep.known_or_placed hsound hanswer
    · obtain ⟨name, hmodule⟩ := h.modules id module hknown
      exact ⟨name, hlater.modules name module hmodule⟩
    · cases hplaced with
      | module hmodule => exact ⟨_, hmodule⟩
      | member hparent => cases hparent
  have honward {id : DeclId .type} {found : DefId .type}
      (hanswer : next.answer (.type id) = some (.type found)) (henclosed : next.decls.Enclosed id)
      (houter : ∀ outer owner, (next.decls.type id).place = .nested outer →
        next.answer (.type outer) = some (.type owner) →
          ∃ depth, Namesake next.decls next.session next.defs depth outer owner) :
      ∃ depth, Namesake next.decls next.session next.defs depth id found := by
    obtain hknown | hplaced := hstep.known_or_placed hsound hanswer
    · rw [hlater.decls] at henclosed ⊢
      obtain ⟨depth, hnamesake⟩ := h.types id found hknown henclosed
      exact ⟨depth, hnamesake.keeps (.of_grows hlater.grows) hlater.modules⟩
    · exact hplaced.namesake (hstep.sound hsound) henclosed hmodules houter
  refine ⟨hmodules, fun id found hanswer henclosed => ?_⟩
  -- From the outside in: a type that is found now lies in what the type around it stands for.
  induction henclosed generalizing found with
  | top hhas hplace =>
      refine honward hanswer (.top hhas hplace) fun outer owner hplace' => ?_
      cases hplace.symm.trans hplace'
  | inside hhas hplace houter ih =>
      refine honward hanswer (.inside hhas hplace houter) fun outer owner hplace' howner => ?_
      cases hplace.symm.trans hplace'
      exact ih owner howner

theorem Run.eponymous (hrun : Run asked mode now next) (hsound : now.Sound) (h : now.Eponymous) :
    next.Eponymous :=
  hrun.keeps hsound (fun hstep hsound h => hstep.eponymous hsound h) h

end Moment

end Graft
