import Mathlib

set_option autoImplicit false

namespace TrtLlm.V2.Storage
open List Nat

-- expansion is tokens_per_block over the override of the buffer.
structure Buffer where
  size : Nat
  expansion : Nat
  expansion_pos : 0 < expansion

abbrev Pool := List (Nat × Buffer)

structure Layer where
  layerId : Nat
  lifeCycle : Nat
  buffers : List Buffer

structure Config where
  layers : List Layer
  distinct : (layers.map Layer.layerId).Nodup

variable (config : Config) (lifeCycle size : Nat)

-- The buffers of one expanded size, layer by layer; an offset is the position times that size.
def coalesced : Pool :=
  (config.layers.filter (·.lifeCycle = lifeCycle)).flatMap fun layer =>
    (layer.buffers.filter fun buffer => buffer.size * buffer.expansion = size).map (layer.layerId, ·)

def slotUtil (pool : Pool) (layerId : Nat) : Nat := pool.countP (·.1 == layerId)

-- The maximum over the pools and layers of the life cycle.
def slotUtilFracMax : ℚ :=
  (config.layers.flatMap fun layer => layer.buffers.flatMap fun buffer =>
    let pool := coalesced config lifeCycle (buffer.size * buffer.expansion)
    pool.map fun entry => (slotUtil pool entry.1 : ℚ) / pool.length).foldr max 0

def neededSlots (numScratchBlocks : Nat) : Nat := ⌈numScratchBlocks * slotUtilFracMax config lifeCycle⌉₊

structure PageIndexConverter where
  scale : Nat
  expansion : Nat
  layerOffset : Nat
  scratchPagesPerBlock : Nat

def getPageIndexConverter (pool : Pool) (position : Nat) (entry : Nat × Buffer) : PageIndexConverter :=
  ⟨pool.length, entry.2.expansion, position, slotUtil pool entry.1⟩

-- The index of a scratch block in mode PER_LAYER, before the expansion.
def PageIndexConverter.scratchIndex (converter : PageIndexConverter) (slotIds : List Nat) (blockPos : Nat) : Option Nat :=
  let totalOffset := blockPos * converter.scratchPagesPerBlock
  slotIds[totalOffset / converter.scale]?.map fun slotId =>
    slotId * converter.scale + (totalOffset % converter.scale + converter.layerOffset) % converter.scale

def PageIndexConverter.scratchPages (converter : PageIndexConverter) (slotIds : List Nat) (blockPos : Nat) : Option (List Nat) :=
  (converter.scratchIndex slotIds blockPos).map fun index =>
    (List.range converter.expansion).map fun i => index * converter.expansion + i

variable {pool : Pool} {slotIds : List Nat} {blocks blockPos : Nat}

-- The layer's buffers lie side by side, from first on.
def Adjacent (pool : Pool) (layerId first : Nat) : Prop :=
  first + slotUtil pool layerId ≤ pool.length ∧ ∀ position entry, pool[position]? = some entry →
    (entry.1 = layerId ↔ first ≤ position ∧ position < first + slotUtil pool layerId)

theorem adjacent_append {before own after : Pool} {layerId : Nat} (owns : ∀ entry ∈ own, entry.1 = layerId)
    (others : ∀ entry ∈ before ++ after, entry.1 ≠ layerId) : Adjacent (before ++ own ++ after) layerId before.length := by
  have util : slotUtil (before ++ own ++ after) layerId = own.length := by
    have all : own.countP (·.1 == layerId) = own.length := countP_eq_length.mpr (by simpa using owns)
    have none : (before ++ after).countP (·.1 == layerId) = 0 := countP_eq_zero.mpr (by simpa using others)
    rw [countP_append] at none
    rw [slotUtil, countP_append, countP_append]
    omega
  refine ⟨by rw [util]; simp, fun position entry found => ?_⟩
  rw [append_assoc, getElem?_append, getElem?_append] at found
  split_ifs at found
  all_goals have := mem_of_getElem? found
  all_goals grind

theorem coalesced_adjacent {layer : Layer} (listed : layer ∈ config.layers) :
    ∃ first, Adjacent (coalesced config layer.lifeCycle size) layer.layerId first := by
  obtain ⟨before, after, split⟩ := append_of_mem listed
  have apart := config.distinct
  rw [split, map_append, map_cons, perm_middle.nodup_iff, nodup_cons, mem_append] at apart
  unfold coalesced
  rw [split, filter_append, filter_cons_of_pos (by simp), flatMap_append, flatMap_cons, ← append_assoc]
  refine ⟨_, adjacent_append (fun entry mem => ?_) fun entry mem same => apart.1 ?_⟩
  · obtain ⟨buffer, _, rfl⟩ := mem_map.mp mem
    rfl
  rw [← flatMap_append, ← filter_append, mem_flatMap] at mem
  obtain ⟨other, kept, inside⟩ := mem
  obtain ⟨buffer, _, rfl⟩ := mem_map.mp inside
  rw [← mem_append, ← map_append]
  exact mem_map.mpr ⟨other, mem_of_mem_filter kept, same⟩

theorem le_foldr_max {values : List ℚ} {val : ℚ} (mem : val ∈ values) : val ≤ values.foldr max 0 := by
  induction values with
  | nil => cases mem
  | cons head rest ih =>
    rcases mem_cons.mp mem with rfl | later
    · exact le_max_left _ _
    · exact (ih later).trans (le_max_right _ _)

theorem block_inside (coalesces : coalesced config lifeCycle size = pool) {entry : Nat × Buffer}
    (mem : entry ∈ pool) (scratch : blockPos < blocks) :
    blockPos * slotUtil pool entry.1 / pool.length < neededSlots config lifeCycle blocks := by
  have util : 0 < slotUtil pool entry.1 := countP_pos_iff.mpr ⟨entry, mem, by simp⟩
  have scale : 0 < pool.length := length_pos_of_mem mem
  have frac : (slotUtil pool entry.1 : ℚ) / pool.length ≤ slotUtilFracMax config lifeCycle := by
    obtain ⟨layer, kept, inside⟩ := mem_flatMap.mp (coalesces ▸ mem : entry ∈ coalesced config lifeCycle size)
    obtain ⟨buffer, sized, _⟩ := mem_map.mp inside
    obtain ⟨owned, same⟩ := mem_filter.mp sized
    refine le_foldr_max (mem_flatMap.mpr ⟨layer, mem_of_mem_filter kept, mem_flatMap.mpr ⟨buffer, owned, ?_⟩⟩)
    rw [of_decide_eq_true same, coalesces]
    exact mem_map_of_mem mem
  have covered : (blocks : ℚ) * slotUtilFracMax config lifeCycle ≤ neededSlots config lifeCycle blocks := le_ceil _
  have total := (mul_le_mul_of_nonneg_left frac (cast_nonneg blocks)).trans covered
  rw [← mul_div_assoc, div_le_iff₀ (by exact_mod_cast scale)] at total
  rw [div_lt_iff_lt_mul scale]
  exact lt_of_lt_of_le (mul_lt_mul_of_pos_right scratch util) (by exact_mod_cast total)

def Packed (scale util blocks : Nat) : Prop := util ∣ scale ∨ blocks * util ≤ scale

theorem Packed.room {scale util : Nat} (packed : Packed scale util blocks)
    (pos : 0 < scale) (scratch : blockPos < blocks) : blockPos * util % scale + util ≤ scale := by
  rcases packed with divides | few
  · have part : util ∣ blockPos * util % scale := (Nat.dvd_mod_iff divides).mpr (Nat.dvd_mul_left _ _)
    have below := Nat.mod_lt (blockPos * util) pos
    obtain ⟨k, rfl⟩ := divides
    obtain ⟨j, same⟩ := part
    rw [same] at below ⊢
    have step : j < k := Nat.lt_of_mul_lt_mul_left below
    calc util * j + util = util * (j + 1) := by ring
      _ ≤ util * k := Nat.mul_le_mul_left _ step
  · have next : (blockPos + 1) * util ≤ blocks * util := Nat.mul_le_mul_right _ scratch
    have small := Nat.mod_le (blockPos * util) scale
    rw [add_mul, one_mul] at next
    omega

theorem part_div {whole part size : Nat} (inside : part < size) : (whole * size + part) / size = whole := by
  rw [mul_comm, mul_add_div (zero_lt_of_lt inside), div_eq_of_lt inside, add_zero]

theorem part_unique {whole other part rest size : Nat} (inside : part < size) (within : rest < size)
    (same : whole * size + part = other * size + rest) : whole = other ∧ part = rest := by
  have wholes := congrArg (· / size) same
  simp only [part_div inside, part_div within] at wholes
  exact ⟨wholes, by rw [wholes] at same; omega⟩

def Inside (pool : Pool) (slotIds : List Nat) (blocks : Nat) : Prop :=
  ∀ blockPos < blocks, ∀ position entry, pool[position]? = some entry → ∃ index pages,
    (getPageIndexConverter pool position entry).scratchIndex slotIds blockPos = some index ∧
    (getPageIndexConverter pool position entry).scratchPages slotIds blockPos = some pages ∧ pages.Nodup ∧
    (∀ page ∈ pages, page / entry.2.expansion = index) ∧ index / pool.length ∈ slotIds

def Apart (pool : Pool) (layerId : Nat) (slotIds : List Nat) (blocks : Nat) : Prop :=
  ∀ blockPos < blocks, ∀ other < blocks, ∀ position entry, pool[position]? = some entry → entry.1 = layerId →
    ∀ place neighbour, pool[place]? = some neighbour → neighbour.1 = layerId → (blockPos, position) ≠ (other, place) →
    ∀ index, (getPageIndexConverter pool position entry).scratchIndex slotIds blockPos = some index →
      (getPageIndexConverter pool place neighbour).scratchIndex slotIds other ≠ some index

section
variable {layerId first : Nat} (adjacent : Adjacent pool layerId first)

include adjacent

theorem apart_of_packed (nodup : slotIds.Nodup) (packed : Packed pool.length (slotUtil pool layerId) blocks) :
    Apart pool layerId slotIds blocks := by
  rintro blockPos scratch other scratch' position entry found rfl place neighbour found' same apart idx here there
  obtain ⟨slotId, slot, rfl⟩ := Option.map_eq_some_iff.mp here
  obtain ⟨slotId', slot', alike⟩ := Option.map_eq_some_iff.mp there
  simp only [getPageIndexConverter, same] at slot slot' alike
  have pos : 0 < pool.length := length_pos_of_mem (mem_of_getElem? found)
  obtain ⟨low, high⟩ := (adjacent.2 position entry found).mp rfl
  obtain ⟨low', high'⟩ := (adjacent.2 place neighbour found').mp same
  have room := packed.room pos scratch
  have room' := packed.room pos scratch'
  clear here there
  generalize slotUtil pool entry.1 = util at *
  generalize pool.length = scale at *
  -- the two pages lie in one slot, at one place of it
  obtain ⟨rfl, rests⟩ := part_unique (Nat.mod_lt _ pos) (Nat.mod_lt _ pos) alike
  have listed := (List.getElem?_eq_some_iff.mp slot').1
  have quotient := (getElem?_inj listed nodup).mp (slot'.trans slot.symm)
  obtain ⟨part, rfl⟩ := Nat.exists_eq_add_of_le low
  obtain ⟨part', rfl⟩ := Nat.exists_eq_add_of_le low'
  have shifted : first + (blockPos * util % scale + part) ≡ first + (other * util % scale + part') [MOD scale] := by
    unfold Nat.ModEq
    convert rests.symm using 2 <;> omega
  have parts := (Nat.ModEq.add_left_cancel' first shifted).eq_of_lt_of_lt (by omega) (by omega)
  have whole := Nat.div_add_mod (blockPos * util) scale
  have whole' := Nat.div_add_mod (other * util) scale
  rw [quotient] at whole'
  obtain ⟨rfl, rfl⟩ := @part_unique blockPos other part part' util (by omega) (by omega) (by omega)
  exact apart rfl

theorem packed_of_apart (allocated : slotIds ≠ []) (util : 0 < slotUtil pool layerId)
    (apart : Apart pool layerId slotIds blocks) : Packed pool.length (slotUtil pool layerId) blocks := by
  by_contra unpacked
  obtain ⟨odd, many⟩ := not_or.mp unpacked
  obtain ⟨fits, owned⟩ := adjacent
  obtain ⟨slotId, slot⟩ : ∃ slotId, slotIds[0]? = some slotId := ⟨_, getElem?_eq_getElem (length_pos_iff.mpr allocated)⟩
  have whole := Nat.div_add_mod pool.length (slotUtil pool layerId)
  have rest := Nat.mod_lt pool.length util
  have own : ∀ part < slotUtil pool layerId, ∃ entry, pool[first + part]? = some entry ∧ entry.1 = layerId := by
    intro part inside
    have listed := getElem?_eq_getElem (show first + part < pool.length by omega)
    exact ⟨_, listed, (owned _ _ listed).mpr ⟨by omega, by omega⟩⟩
  obtain ⟨entry, found, rfl⟩ := own 0 util
  obtain ⟨neighbour, found', same⟩ := own _ rest
  -- the last block that begins in the first slot wraps around to block 0
  have last : pool.length / slotUtil pool entry.1 * slotUtil pool entry.1 < pool.length := by rw [Nat.mul_comm]; omega
  have begun : pool.length / slotUtil pool entry.1 < blocks := by
    by_contra few
    have := Nat.mul_le_mul_right (slotUtil pool entry.1) (Nat.le_of_not_lt few)
    omega
  have first_block : 0 < pool.length / slotUtil pool entry.1 := Nat.div_pos (by omega) util
  have wrapped : pool.length / slotUtil pool entry.1 * slotUtil pool entry.1 +
      (first + pool.length % slotUtil pool entry.1) = first + pool.length := by rw [Nat.mul_comm]; omega
  refine apart 0 (by omega) _ begun _ entry found rfl _ neighbour found' same ?_ (slotId * pool.length + first % pool.length) ?_ ?_
  · rw [Ne, Prod.mk.injEq]
    omega
  · simp [PageIndexConverter.scratchIndex, getPageIndexConverter, slot]
  · simp [PageIndexConverter.scratchIndex, getPageIndexConverter, same, Nat.div_eq_of_lt last, Nat.mod_eq_of_lt last, slot, wrapped]

end

theorem scratch_pages_apart_iff (layer : Layer) (listed : layer ∈ config.layers) (blocks : Nat)
    (slotIds : List Nat) (allocated : slotIds.length = neededSlots config layer.lifeCycle blocks) (distinct : slotIds.Nodup) :
    Inside (coalesced config layer.lifeCycle size) slotIds blocks ∧
      (Apart (coalesced config layer.lifeCycle size) layer.layerId slotIds blocks ↔
        Packed (coalesced config layer.lifeCycle size).length
          (slotUtil (coalesced config layer.lifeCycle size) layer.layerId) blocks) := by
  obtain ⟨first, adjacent⟩ := coalesced_adjacent config size listed
  generalize coalesces : coalesced config layer.lifeCycle size = pool at adjacent ⊢
  refine ⟨fun blockPos scratch position entry found => ?_, fun apart => ?_, apart_of_packed adjacent distinct⟩
  · have inside := block_inside config _ size coalesces (mem_of_getElem? found) scratch
    rw [← allocated] at inside
    have defined := congrArg (Option.map fun slotId => slotId * pool.length +
      (blockPos * slotUtil pool entry.1 % pool.length + position) % pool.length) (getElem?_eq_getElem inside)
    refine ⟨_, _, defined, congrArg (Option.map _) defined, nodup_range.map fun _ _ => Nat.add_left_cancel, ?_, ?_⟩
    · exact forall_mem_map.mpr fun _ small => part_div (List.mem_range.mp small)
    · rw [part_div (Nat.mod_lt _ (length_pos_of_mem (mem_of_getElem? found)))]
      exact getElem_mem inside
  · by_cases none : slotUtil pool layer.layerId = 0 ∨ blocks = 0
    · rcases none with none | none <;> exact .inr (by simp [none])
    obtain ⟨unused, empty⟩ := not_or.mp none
    obtain ⟨entry, mem, _⟩ := countP_pos_iff.mp (Nat.pos_of_ne_zero unused)
    have inside := block_inside config _ size coalesces mem (Nat.pos_of_ne_zero empty)
    exact packed_of_apart adjacent (ne_nil_of_length_pos (allocated ▸ Nat.zero_lt_of_lt inside)) (Nat.pos_of_ne_zero unused) apart

def twoLayers (own other : Nat) : Config where
  layers := [⟨0, 0, List.replicate own ⟨100, 1, Nat.one_pos⟩⟩, ⟨1, 0, List.replicate other ⟨100, 1, Nat.one_pos⟩⟩]
  distinct := by simp

theorem paired_layers_apart : Apart (coalesced (twoLayers 2 2) 0 100) 0 [5, 7] 3 :=
  (scratch_pages_apart_iff (twoLayers 2 2) 100 ⟨0, 0, _⟩ mem_cons_self 3 [5, 7] (by decide +kernel) (by decide)).2.mpr
    (.inl (by decide))

-- Two buffers of one layer share a slot with another's: block 1 wraps around onto block 0.
theorem odd_layers_alias : [0, 1].length = neededSlots (twoLayers 2 1) 0 2 ∧
    ¬Apart (coalesced (twoLayers 2 1) 0 100) 0 [0, 1] 2 := by
  exact ⟨by decide +kernel, fun apart => apart 0 (by decide) 1 (by decide) 0 _ rfl rfl 1 _ rfl rfl (by decide) 0 rfl rfl⟩

end TrtLlm.V2.Storage
