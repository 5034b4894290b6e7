import Graft.Code.Body
import Mathlib

/-!
# Offsets of instructions

Laying out instructions gives each of them the number of bytes before it (`layOut_eq`), as long as
all of them together have fewer than 2³² bytes; no sum overflows on the way then, and none does
before (`fits_iff`). So every place in a body, the end included, has a byte position, and no two
places have the same one (`Body.Addressed`).
-/

namespace Graft

namespace Instruction

/-- The number of bytes of some instructions. -/
def sizes (code : List Instruction) : Nat :=
  (code.map size).sum

/-- Whether laying out instructions from an offset on loses nothing: each size and each sum of an
offset and a size is a number of 32 bits. -/
def Fits (start : UInt32) : List Instruction → Prop
  | [] => True
  | instruction :: rest =>
    instruction.size < UInt32.size ∧ start.toNat + instruction.size < UInt32.size ∧
      Fits (start + UInt32.ofNat instruction.size) rest

@[simp] theorem sizes_nil : sizes [] = 0 := rfl

@[simp] theorem sizes_cons (instruction : Instruction) (rest : List Instruction) :
    sizes (instruction :: rest) = instruction.size + sizes rest := by
  simp [sizes]

@[simp] theorem sizes_append (code rest : List Instruction) :
    sizes (code ++ rest) = sizes code + sizes rest := by
  simp [sizes]

/-- An offset moved on by a number of bytes that fits. -/
theorem toNat_add_ofNat {start : UInt32} {bytes : Nat} (h : start.toNat + bytes < UInt32.size) :
    (start + UInt32.ofNat bytes).toNat = start.toNat + bytes := by
  have hbytes : (UInt32.ofNat bytes).toNat = bytes := UInt32.toNat_ofNat_of_lt (by omega)
  rw [UInt32.toNat_add, hbytes]
  exact Nat.mod_eq_of_lt h

/-- Nothing is lost exactly if the end is a number of 32 bits. -/
theorem fits_iff {start : UInt32} {code : List Instruction} :
    Fits start code ↔ start.toNat + sizes code < UInt32.size := by
  induction code generalizing start with
  | nil => simpa [Fits] using start.toNat_lt
  | cons instruction rest ih =>
      rw [Fits, ih, sizes_cons]
      constructor
      · rintro ⟨-, hsum, hrest⟩
        rw [toNat_add_ofNat hsum] at hrest
        omega
      · intro h
        have hsum : start.toNat + instruction.size < UInt32.size := by omega
        rw [toNat_add_ofNat hsum]
        omega

/-- Laying out instructions gives each of them the number of bytes before it and changes nothing
else. -/
theorem layOut_eq (start : UInt32) (code : List Instruction) :
    layOut start code = code.mapIdx fun index instruction =>
      { instruction with offset := start + UInt32.ofNat (sizes (code.take index)) } := by
  induction code generalizing start with
  | nil => rfl
  | cons instruction rest ih =>
      rw [layOut, ih, List.mapIdx_cons]
      simp [UInt32.ofNat_add, UInt32.add_assoc]

/-- Offsets depend on sizes alone. -/
theorem layOut_offsets {code code' : List Instruction} (start : UInt32)
    (h : code'.map size = code.map size) :
    (layOut start code').map offset = (layOut start code).map offset := by
  induction code generalizing code' start with
  | nil =>
      rw [List.map_nil, List.map_eq_nil_iff] at h
      rw [h]
  | cons instruction rest ih =>
      obtain ⟨instruction', rest', rfl, hhead, hrest⟩ := List.map_eq_cons_iff.mp h
      simp only [layOut, List.map_cons, hhead, ih _ hrest]

/-- Laying out instructions changes no size. -/
theorem layOut_sizes (start : UInt32) (code : List Instruction) :
    (layOut start code).map size = code.map size := by
  induction code generalizing start with
  | nil => rfl
  | cons instruction rest ih =>
      simp only [layOut, List.map_cons, ih]
      rfl

/-- Every instruction has a byte, so that more instructions have more bytes. -/
theorem sizes_take_lt {code : List Instruction} {left right : Nat} (hlt : left < right)
    (hright : right ≤ code.length) : sizes (code.take left) < sizes (code.take right) := by
  have hleft : left < code.length := by omega
  have hnext : sizes (code.take (left + 1)) = sizes (code.take left) + code[left].size := by
    rw [← List.take_concat_get' code left hleft, sizes_append]
    simp
  have hrest : sizes (code.take (left + 1)) ≤ sizes (code.take right) := by
    have hsplit : code.take (left + 1) <+: code.take right :=
      List.take_prefix_take_left (by omega)
    obtain ⟨more, hmore⟩ := hsplit
    rw [← hmore, sizes_append]
    omega
  have hpos := code[left].size_pos
  omega

end Instruction

/-- The places that an operand names. -/
def Operand.places : Operand → List Nat
  | .target index => [index]
  | .switch targets => targets
  | .none | .immediate _ | .text _ | .localVar _ | .argument _ | .type _ | .field _ | .method _
  | .token _ | .signature _ => []

/-- The places that a handler names. -/
def Handler.places (handler : Handler) : List Nat :=
  [handler.tryStart, handler.tryEnd, handler.handlerStart, handler.handlerEnd]
    ++ handler.filterStart.toList

namespace Body

theorem codeSize_eq (body : Body) : body.codeSize = (body.code.map Instruction.size).sum := by
  rw [codeSize, List.sum_eq_foldr, List.foldr_map]

theorem codeSize_congr {body body' : Body}
    (h : body'.code.map Instruction.size = body.code.map Instruction.size) :
    body'.codeSize = body.codeSize := by
  rw [codeSize_eq, codeSize_eq, h]

/-- Bodies whose instructions have the same sizes and offsets have the same places. -/
theorem offsetOf?_congr {body body' : Body}
    (hoffset : body'.code.map Instruction.offset = body.code.map Instruction.offset)
    (hsize : body'.code.map Instruction.size = body.code.map Instruction.size) (index : Nat) :
    body'.offsetOf? index = body.offsetOf? index := by
  have hlength : body'.code.length = body.code.length := by simpa using congrArg List.length hoffset
  have hget : body'.code[index]?.map Instruction.offset = body.code[index]?.map Instruction.offset := by
    rw [← List.getElem?_map, ← List.getElem?_map, hoffset]
  unfold offsetOf?
  rw [codeSize_congr hsize, hlength]
  cases hbefore : body.code[index]? <;> cases hafter : body'.code[index]? <;>
    simp_all

/-- The number of bytes of the instructions before a place. -/
def bytesBefore (body : Body) (index : Nat) : Nat :=
  ((body.code.take index).map Instruction.size).sum

/-- Whether a place has a byte position that no other place has. -/
def Locates (body : Body) (index : Nat) : Prop :=
  ∃ offset, body.offsetOf? index = some offset ∧
    ∀ other, body.offsetOf? other = some offset → other = index

/-- Whether the offsets of a body are right: nothing was lost when they were computed, each is the
number of bytes before it, they increase up to the end of the code, and there are none beyond. -/
structure Addressed (body : Body) : Prop where
  fits : Instruction.Fits 0 body.code
  offset : ∀ index ≤ body.code.length, ∃ offset,
    body.offsetOf? index = some offset ∧ offset.toNat = body.bytesBefore index
  increasing : ∀ left right offset offset', left < right → right ≤ body.code.length →
    body.offsetOf? left = some offset → body.offsetOf? right = some offset' → offset < offset'
  last : ∃ offset, body.offsetOf? body.code.length = some offset ∧ offset.toNat = body.codeSize
  beyond : ∀ index, body.code.length < index → body.offsetOf? index = none
  branches : ∀ instruction ∈ body.code, ∀ place ∈ instruction.operand.places,
    place ≤ body.code.length → body.Locates place
  boundaries : ∀ handler ∈ body.handlers, ∀ place ∈ handler.places,
    place ≤ body.code.length → body.Locates place

variable {body : Body}

theorem length_withOffsets (body : Body) : body.withOffsets.code.length = body.code.length := by
  simp [withOffsets, Instruction.layOut_eq]

theorem sizes_withOffsets (body : Body) :
    body.withOffsets.code.map Instruction.size = body.code.map Instruction.size :=
  Instruction.layOut_sizes 0 body.code

theorem bytesBefore_withOffsets (body : Body) (index : Nat) :
    body.withOffsets.bytesBefore index = body.bytesBefore index := by
  rw [bytesBefore, bytesBefore, List.map_take, List.map_take, sizes_withOffsets]

theorem bytesBefore_length (body : Body) : body.bytesBefore body.code.length = body.codeSize := by
  rw [bytesBefore, List.take_length, codeSize_eq]

/-- A place in a body that has been laid out has as its offset the number of bytes before it, the end
of the code like any other. -/
theorem offsetOf?_withOffsets {index : Nat} (hindex : index ≤ body.code.length) :
    body.withOffsets.offsetOf? index = some (UInt32.ofNat (body.bytesBefore index)) := by
  rcases Nat.lt_or_eq_of_le hindex with hlt | rfl
  · have hget : body.withOffsets.code[index]? = some
        { body.code[index] with offset := UInt32.ofNat (body.bytesBefore index) } := by
      simp [withOffsets, Instruction.layOut_eq, List.getElem?_eq_getElem hlt, bytesBefore,
        Instruction.sizes]
    rw [offsetOf?, hget]
  · have hget : body.withOffsets.code[body.code.length]? = none :=
      List.getElem?_eq_none (length_withOffsets body).le
    rw [offsetOf?, hget, length_withOffsets, codeSize_congr (sizes_withOffsets body),
      bytesBefore_length]
    simp

theorem offsetOf?_withOffsets_of_lt {index : Nat} (hindex : body.code.length < index) :
    body.withOffsets.offsetOf? index = none := by
  have hget : body.withOffsets.code[index]? = none :=
    List.getElem?_eq_none (by rw [length_withOffsets]; omega)
  rw [offsetOf?, hget, length_withOffsets]
  exact if_neg (by omega)

/-- The bytes before a place are no more than all of them. -/
theorem bytesBefore_le (body : Body) (index : Nat) : body.bytesBefore index ≤ body.codeSize := by
  have hsplit := congrArg Instruction.sizes (List.take_append_drop index body.code)
  rw [Instruction.sizes_append] at hsplit
  rw [codeSize_eq]
  change Instruction.sizes _ ≤ Instruction.sizes _
  omega

theorem bytesBefore_lt {left right : Nat} (hlt : left < right) (hright : right ≤ body.code.length) :
    body.bytesBefore left < body.bytesBefore right :=
  Instruction.sizes_take_lt hlt hright

/-- A body of fewer than 2³² bytes that has been laid out has the right offsets. -/
theorem addressed_withOffsets (hsize : body.codeSize < UInt32.size) :
    body.withOffsets.Addressed := by
  have htoNat (index : Nat) :
      (UInt32.ofNat (body.bytesBefore index)).toNat = body.bytesBefore index := by
    have hle := body.bytesBefore_le index
    exact UInt32.toNat_ofNat_of_lt (by omega)
  have hlength := body.length_withOffsets
  -- Below 2³² bytes no offset wraps around, so offsets grow with the index.
  have hincreasing {left right : Nat} (hlt : left < right) (hright : right ≤ body.code.length) :
      UInt32.ofNat (body.bytesBefore left) < UInt32.ofNat (body.bytesBefore right) := by
    rw [UInt32.lt_iff_toNat_lt, htoNat, htoNat]
    exact bytesBefore_lt hlt hright
  have hlocates {index : Nat} (hindex : index ≤ body.code.length) :
      body.withOffsets.Locates index := by
    refine ⟨_, offsetOf?_withOffsets hindex, fun other hother => ?_⟩
    rcases Nat.lt_or_ge body.code.length other with hbeyond | hwithin
    · simp [offsetOf?_withOffsets_of_lt hbeyond] at hother
    · rw [offsetOf?_withOffsets hwithin, Option.some.injEq] at hother
      by_contra hne
      rcases Nat.lt_or_gt_of_ne hne with hlt | hlt
      · exact UInt32.ne_of_lt (hincreasing hlt hindex) hother
      · exact UInt32.ne_of_lt (hincreasing hlt hwithin) hother.symm
  constructor
  case fits =>
    rw [Instruction.fits_iff, Instruction.sizes, sizes_withOffsets, ← codeSize_eq]
    simpa using hsize
  case offset =>
    intro index hindex
    rw [hlength] at hindex
    exact ⟨_, offsetOf?_withOffsets hindex, by rw [htoNat, bytesBefore_withOffsets]⟩
  case increasing =>
    intro left right offset offset' hlt hright hoffset hoffset'
    rw [hlength] at hright
    rw [offsetOf?_withOffsets (by omega), Option.some.injEq] at hoffset
    rw [offsetOf?_withOffsets hright, Option.some.injEq] at hoffset'
    rw [← hoffset, ← hoffset']
    exact hincreasing hlt hright
  case last =>
    refine ⟨_, by rw [hlength]; exact offsetOf?_withOffsets le_rfl, ?_⟩
    rw [htoNat, bytesBefore_length, codeSize_congr (sizes_withOffsets body)]
  case beyond => exact fun index hindex => offsetOf?_withOffsets_of_lt (hlength ▸ hindex)
  case branches => exact fun _ _ place _ hplace => hlocates (hlength ▸ hplace)
  case boundaries => exact fun _ _ place _ hplace => hlocates (hlength ▸ hplace)

theorem codeSize_insert (body : Body) (index : Nat) (instruction : Instruction) :
    (body.insert index instruction).codeSize = body.codeSize + instruction.size := by
  have hsplit := congrArg Instruction.sizes (List.take_append_drop index body.code)
  rw [Instruction.sizes_append] at hsplit
  rw [codeSize_eq, codeSize_eq, insert]
  change Instruction.sizes _ = Instruction.sizes _ + _
  rw [Instruction.sizes_append, Instruction.sizes_cons]
  omega

/-- Offsets are the sums of the sizes. Whatever a body was before, once its offsets have been computed
they are right, if it has fewer than 2³² bytes, and its instructions have the sizes that they had; and
so they are again when they have been computed anew after an instruction was put in anywhere. -/
theorem offsets_add_up (body : Body) (hsize : body.codeSize < UInt32.size) :
    body.withOffsets.Addressed ∧
      (∀ index, body.withOffsets.bytesBefore index = body.bytesBefore index) ∧
      ∀ index instruction, body.codeSize + instruction.size < UInt32.size →
        (body.withOffsets.insert index instruction).withOffsets.Addressed := by
  refine ⟨addressed_withOffsets hsize, body.bytesBefore_withOffsets, fun index instruction hinsert => ?_⟩
  refine addressed_withOffsets ?_
  rwa [codeSize_insert, codeSize_congr (sizes_withOffsets body)]

/-- A body with a jump table. -/
def jumping : Body where
  code :=
    [{ opcode := ⟨0, 0x00, "nop", .none, .sequential⟩ },
      { opcode := ⟨0, 0x45, "switch", .switch, .switch⟩, operand := .switch [0, 2, 3] },
      { opcode := ⟨0, 0x2A, "ret", .none, .returning⟩ }]

theorem offsets_add_up_jumping :
    jumping.codeSize < UInt32.size ∧ jumping.withOffsets.Addressed ∧
      jumping.withOffsets.Locates 3 ∧
      [0, 1, 2, 3, 4].map jumping.withOffsets.offsetOf? = [some 0, some 1, some 18, some 19, none] := by
  have hsize : jumping.codeSize < UInt32.size := by decide
  obtain ⟨haddressed, -, -⟩ := offsets_add_up jumping hsize
  have hswitch : jumping.withOffsets.code[1] ∈ jumping.withOffsets.code := List.getElem_mem _
  exact ⟨hsize, haddressed, haddressed.branches _ hswitch 3 (by decide) (by decide), by decide⟩

end Body

end Graft
