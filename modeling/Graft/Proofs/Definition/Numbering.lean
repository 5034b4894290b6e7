import Graft.Proofs.Definition.Adoption
import Mathlib.Data.Set.Card

/-!
# Tokens and definitions

While a module has fewer than 2²⁴ definitions of each kind, its tokens and what it holds go together
one to one (`Numbered`). The tokens of its list are all different then, so that its ledger has an
entry for each of them and for nothing else (`Files.entries`).
-/

namespace Graft

/-! ## Tokens and their parts -/

theorem TableId.code_injective : Function.Injective TableId.code := by
  intro left right h
  cases left <;> cases right <;> first | rfl | cases h

theorem SymbolKind.table_surjective : Function.Surjective SymbolKind.table := by
  intro table
  cases table
  exacts [⟨.module, rfl⟩, ⟨.type, rfl⟩, ⟨.field, rfl⟩, ⟨.method, rfl⟩, ⟨.event, rfl⟩, ⟨.property, rfl⟩]

namespace Token

/-- The table is above the 24 bits of the row. -/
theorem toNat_ofParts (table : TableId) (row : UInt32) :
    (ofParts table row).value.toNat = table.code.toNat * 2 ^ 24 + row.toNat % 2 ^ 24 := by
  have hcode : table.code.toNat < 2 ^ 8 := table.code.toNat_lt
  have hshift : (table.code.toUInt32 <<< 24).toNat = table.code.toNat <<< 24 := by
    rw [UInt32.toNat_shiftLeft, UInt8.toNat_toUInt32]
    refine Nat.mod_eq_of_lt ?_
    rw [Nat.shiftLeft_eq]
    change table.code.toNat * 2 ^ 24 < 2 ^ 32
    omega
  have hrow : (row &&& 0x00FFFFFF).toNat = row.toNat % 2 ^ 24 := by
    rw [UInt32.toNat_and]
    exact Nat.and_two_pow_sub_one_eq_mod row.toNat 24
  rw [ofParts, UInt32.toNat_or, hshift, hrow,
    ← Nat.shiftLeft_add_eq_or_of_lt (Nat.mod_lt _ (by decide)), Nat.shiftLeft_eq]

theorem table_ofParts (table : TableId) (row : UInt32) : (ofParts table row).table = table.code := by
  have hcode : table.code.toNat < 2 ^ 8 := table.code.toNat_lt
  apply UInt8.toNat_inj.mp
  rw [Token.table, UInt32.toNat_toUInt8, UInt32.toNat_shiftRight, toNat_ofParts,
    Nat.shiftRight_eq_div_pow]
  change (table.code.toNat * 2 ^ 24 + row.toNat % 2 ^ 24) / 2 ^ 24 % 2 ^ 8 = table.code.toNat
  omega

theorem row_ofParts (table : TableId) (row : UInt32) :
    (ofParts table row).row.toNat = row.toNat % 2 ^ 24 := by
  have hmask : (0x00FFFFFF : UInt32).toNat = 2 ^ 24 - 1 := rfl
  rw [Token.row, UInt32.toNat_and, hmask, Nat.and_two_pow_sub_one_eq_mod, toNat_ofParts]
  omega

/-- Only the token of row zero of the first table names nothing. -/
theorem isNull_eq_false {token : Token} (h : token.row.toNat ≠ 0) : token.isNull = false := by
  rw [isNull, beq_eq_false_iff_ne]
  intro hzero
  exact h (by rw [Token.row, hzero]; rfl)

end Token

namespace Definitions

variable {defs : Definitions} {module : DefId .module} {filed rest : List Definition}
  {definition other : Definition}

/-! ## The tokens of a list -/

/-- Whether a list has fewer than 2²⁴ definitions of each kind. -/
def Fits (filed : List Definition) : Prop :=
  ∀ kind, (filed.filter (·.kind = kind)).length < 2 ^ 24

theorem Fits.append_left (h : Fits (filed ++ rest)) : Fits filed := fun kind => by
  have hlength := h kind
  rw [List.filter_append, List.length_append] at hlength
  omega

theorem rowIn_le (hmem : definition ∈ filed) :
    rowIn filed definition ≤ (filed.filter (·.kind = definition.kind)).length :=
  List.idxOf_lt_length_of_mem (List.mem_filter.mpr ⟨hmem, by simp⟩)

/-- The row of a token is the place that it was given for. -/
theorem row_tokenIn (hfits : Fits filed) (hmem : definition ∈ filed) :
    (tokenIn filed definition).row.toNat = rowIn filed definition := by
  have hrow := Nat.lt_of_le_of_lt (rowIn_le hmem) (hfits definition.kind)
  rw [tokenIn, Token.row_ofParts, UInt32.toNat_ofNat', Nat.mod_eq_of_lt (by omega : _ < 2 ^ 32),
    Nat.mod_eq_of_lt hrow]

theorem table_tokenIn (filed : List Definition) (definition : Definition) :
    (tokenIn filed definition).table = definition.kind.table.code :=
  Token.table_ofParts ..

/-- No two definitions of a list have the same token. -/
theorem tokenIn_inj (hfits : Fits filed) (hmem : definition ∈ filed) (hother : other ∈ filed)
    (h : tokenIn filed definition = tokenIn filed other) : definition = other := by
  have hkind : definition.kind = other.kind := by
    apply SymbolKind.table_injective
    apply TableId.code_injective
    rw [← table_tokenIn filed, h, table_tokenIn]
  have hrow : rowIn filed definition = rowIn filed other := by
    rw [← row_tokenIn hfits hmem, h, row_tokenIn hfits hother]
  rw [rowIn, rowIn, hkind] at hrow
  exact (List.idxOf_inj (List.mem_filter.mpr ⟨hmem, by simp [hkind]⟩)).mp (Nat.succ.inj hrow)

/-- The places of the definitions of a kind are the numbers from one on. -/
theorem exists_rowIn_iff (hnodup : filed.Nodup) (kind : SymbolKind) (row : Nat) :
    (∃ definition ∈ filed, definition.kind = kind ∧ rowIn filed definition = row) ↔
      1 ≤ row ∧ row ≤ (filed.filter (·.kind = kind)).length := by
  constructor
  · rintro ⟨definition, hmem, rfl, rfl⟩
    exact ⟨Nat.succ_pos _, rowIn_le hmem⟩
  · rintro ⟨hfirst, hlast⟩
    obtain ⟨place, rfl⟩ := Nat.exists_eq_add_of_le' hfirst
    have hplace : (filed.filter (·.kind = kind))[place] ∈ filed.filter (·.kind = kind) :=
      List.getElem_mem _
    obtain ⟨hmem, hkind⟩ := List.mem_filter.mp hplace
    have hkind : (filed.filter (·.kind = kind))[place].kind = kind := by simpa using hkind
    refine ⟨_, hmem, hkind, ?_⟩
    rw [rowIn, hkind, (hnodup.filter _).idxOf_getElem]

/-- The ledger of a list has one entry for each of its definitions. -/
theorem entries_foldl_file (hnodup : filed.Nodup) (hfits : Fits filed) :
    (filed.foldl file ({}, {})).2.entries =
      filed.map fun definition => (tokenIn filed definition, definition) := by
  induction filed using List.reverseRecOn with
  | nil => rfl
  | append_singleton filed definition ih =>
      obtain ⟨hfiled, -, hapart⟩ := List.nodup_append'.mp hnodup
      have hnew : definition ∉ filed := fun hmem => hapart hmem (List.mem_singleton.mpr rfl)
      have hold : (filed.foldl file ({}, {})).2.entries =
          filed.map fun item => (tokenIn (filed ++ [definition]) item, item) := by
        rw [ih hfiled hfits.append_left]
        exact List.map_congr_left fun item hmem => by rw [tokenIn_append hmem]
      -- The last token is none of those that came before.
      have hkeys : ∀ entry ∈ (filed.foldl file ({}, {})).2.entries,
          entry.1 ≠ tokenIn (filed ++ [definition]) definition := by
        rw [hold, List.forall_mem_map]
        intro item hmem heq
        refine hnew (tokenIn_inj hfits ?_ ?_ heq ▸ hmem) <;> simp [hmem]
      rw [List.foldl_append, List.foldl_cons, List.foldl_nil, file, Dictionary.insert,
        next_token hnew, ← List.append_nil (filed.foldl file ({}, {})).2.entries,
        Dictionary.put_append hkeys, hold, List.map_append]
      rfl

/-! ## Modules -/

/-- All that a module holds, the module itself apart. -/
def contents (defs : Definitions) (module : DefId .module) : Set Definition :=
  {definition | definition ≠ .module module ∧ defs.Below (.module module) definition}

/-- The definitions of a module that have their rows in a table. -/
def rowsOf (defs : Definitions) (module : DefId .module) (table : TableId) : Set Definition :=
  {definition ∈ defs.contents module | definition.kind.table = table}

/-- Whether the tokens of a module and what it holds go together one to one. -/
structure Numbered (defs : Definitions) (module : DefId .module) : Prop where
  finite : (defs.contents module).Finite
  notNull : ∀ definition ∈ defs.contents module, (defs.token definition).isNull = false
  table : ∀ definition ∈ defs.contents module,
    (defs.token definition).table = definition.kind.table.code
  injective : Set.InjOn defs.token (defs.contents module)
  /-- A token leads to the definition that has it, and no other token leads anywhere. -/
  lookup : ∀ token definition, defs.lookup module token = some definition ↔
    definition ∈ defs.contents module ∧ defs.token definition = token
  /-- The rows of a table are numbered from one on, without gaps. -/
  rows : ∀ table,
    (fun definition => (defs.token definition).row.toNat) '' defs.rowsOf module table =
      Set.Icc 1 (defs.rowsOf module table).ncard
  /-- As many tokens lead somewhere as there are definitions. -/
  count : (defs.module module).tokens.size = (defs.contents module).ncard

/-- No module has more definitions of a table than there are definitions. -/
theorem ncard_rowsOf_le (hheld : defs.Held) (module : DefId .module) (table : TableId) :
    (defs.rowsOf module table).ncard ≤ defs.all.length := by
  have hsubset : defs.rowsOf module table ⊆ defs.all.toFinset := by
    rintro definition ⟨⟨hne, hbelow⟩, -⟩
    cases hbelow with
    | top => exact absurd rfl hne
    | member _ hmem => exact List.mem_toFinset.mpr (mem_all (hheld _ _ _ hmem))
  calc (defs.rowsOf module table).ncard
    _ ≤ (defs.all.toFinset : Set Definition).ncard :=
        Set.ncard_le_ncard hsubset (Finset.finite_toSet _)
    _ = defs.all.toFinset.card := Set.ncard_coe_finset _
    _ ≤ defs.all.length := defs.all.toFinset_card_le

theorem token_eq (defs : Definitions) (definition : Definition) :
    defs.token definition = ((defs.numbers definition).bind Prod.fst).getD .null := by
  cases definition with
  | module id => cases h : defs.modules.get? id.index <;> simp [token, numbers, record?, h]; rfl
  | type id => cases h : defs.types.get? id.index <;> simp [token, numbers, record?, type, h] <;> rfl
  | field id =>
      cases h : defs.fields.get? id.index <;> simp [token, numbers, record?, field, h] <;> rfl
  | method id =>
      cases h : defs.methods.get? id.index <;> simp [token, numbers, record?, method, h] <;> rfl
  | property id =>
      cases h : defs.properties.get? id.index <;> simp [token, numbers, record?, property, h] <;> rfl
  | event id =>
      cases h : defs.events.get? id.index <;> simp [token, numbers, record?, event, h] <;> rfl

theorem Files.token (h : defs.Files module filed) (hmem : definition ∈ filed) :
    defs.token definition = tokenIn filed definition := by
  rw [token_eq, h.numbers definition hmem]
  rfl

/-- What a module has given tokens to are the definitions of its list, each under its token. -/
theorem Files.entries (h : defs.Files module filed) (hfits : Fits filed) :
    (defs.module module).tokens.entries =
      filed.map fun definition => (tokenIn filed definition, definition) := by
  rw [← entries_foldl_file h.nodup hfits, ← h.ledger]
  rfl

/-- A module finds what is in its list, each by its token, and nothing else. -/
theorem Files.lookup_iff (h : defs.Files module filed) (hfits : Fits filed) {token : Token} :
    defs.lookup module token = some definition ↔
      definition ∈ filed ∧ tokenIn filed definition = token := by
  have hfound {definition : Definition} (hlookup : defs.lookup module token = some definition) :
      definition ∈ filed ∧ tokenIn filed definition = token := by
    have hentry := Dictionary.mem_of_get? hlookup
    rw [h.entries hfits] at hentry
    obtain ⟨other, hmem, heq⟩ := List.mem_map.mp hentry
    cases heq
    exact ⟨hmem, rfl⟩
  refine ⟨hfound, fun ⟨hmem, htoken⟩ => ?_⟩
  cases hlookup : defs.lookup module token with
  | some other =>
      obtain ⟨hother, heq⟩ := hfound hlookup
      rw [tokenIn_inj hfits hother hmem (heq.trans htoken.symm)]
  | none =>
      have hnone := List.find?_eq_none.mp (Option.map_eq_none_iff.mp hlookup)
      rw [h.entries hfits, List.forall_mem_map] at hnone
      exact absurd (decide_eq_true htoken) (hnone definition hmem)

/-- A module with few enough definitions of each kind and its definitions go together one to one. -/
theorem Filing.numbered (h : defs.Filing) (hmodule : defs.has (.module module) = true)
    (hfew : ∀ table, (defs.rowsOf module table).ncard < 2 ^ 24) : defs.Numbered module := by
  obtain ⟨filed, hfiles, hmem⟩ := h.filed module hmodule
  -- The list of the module has each of its definitions once, so that counting is counting there.
  have hncard (keeps : Definition → Bool) :
      {definition ∈ defs.contents module | keeps definition}.ncard = (filed.filter keeps).length := by
    rw [← List.toFinset_card_of_nodup (hfiles.nodup.filter keeps), ← Set.ncard_coe_finset]
    congr 1
    ext definition
    simp [contents, hmem]
  have hrows (kind : SymbolKind) : (defs.rowsOf module kind.table).ncard =
      (filed.filter (·.kind = kind)).length := by
    rw [← hncard]
    simp [rowsOf, SymbolKind.table_injective.eq_iff]
  have hfits : Fits filed := fun kind => hrows kind ▸ hfew kind.table
  have hcontents : defs.contents module = {definition | definition ∈ filed} :=
    Set.ext fun definition => (hmem definition).symm
  constructor
  case finite => exact hcontents ▸ filed.finite_toSet
  case notNull =>
    intro definition hdefinition
    have hdefinition := (hmem definition).mpr hdefinition
    apply Token.isNull_eq_false
    rw [hfiles.token hdefinition, row_tokenIn hfits hdefinition]
    exact Nat.succ_ne_zero _
  case table =>
    intro definition hdefinition
    rw [hfiles.token ((hmem definition).mpr hdefinition), table_tokenIn]
  case injective =>
    intro definition hdefinition other hother heq
    have hdefinition := (hmem definition).mpr hdefinition
    have hother := (hmem other).mpr hother
    rw [hfiles.token hdefinition, hfiles.token hother] at heq
    exact tokenIn_inj hfits hdefinition hother heq
  case lookup =>
    intro token definition
    rw [hfiles.lookup_iff hfits, hcontents]
    exact and_congr_right fun hdefinition => by rw [hfiles.token hdefinition]
  case rows =>
    intro table
    obtain ⟨kind, rfl⟩ := SymbolKind.table_surjective table
    ext row
    rw [Set.mem_Icc, hrows, ← exists_rowIn_iff hfiles.nodup]
    simp only [Set.mem_image, rowsOf, hcontents, SymbolKind.table_injective.eq_iff,
      Set.mem_ofPred_eq, and_assoc]
    refine exists_congr fun definition => and_congr_right fun hdefinition => ?_
    rw [hfiles.token hdefinition, row_tokenIn hfits hdefinition]
  case count =>
    have hall := hncard fun _ => true
    simp only [Set.sep_true, List.filter_true] at hall
    rw [Dictionary.size, hfiles.entries hfits, List.length_map, hall]

end Definitions

end Graft
