import Mathlib.Data.List.Nodup
import TaggedHeap.Proofs.Space.Categories

/-! The list of a space's kinds: exactly what the slots hold, in the order of the tags, so that no
kind and no name is in it twice. -/
namespace TaggedHeap.TagSpace

variable {s : TagSpace} {k : KindInfo}

theorem declaredKind {position : Nat} {slot : Slot} : slot.declared position = some k ↔
    slot = .kind k.name k.category ∧ k.tag = UInt32.ofNat position := by
  cases slot with
  | kind name category =>
    obtain ⟨tag, _, _⟩ := k
    simp only [Slot.declared, Option.some.injEq, KindInfo.mk.injEq, Slot.kind.injEq]
    constructor
    · rintro ⟨rfl, rfl, rfl⟩
      exact ⟨⟨rfl, rfl⟩, rfl⟩
    · rintro ⟨⟨rfl, rfl⟩, rfl⟩
      exact ⟨rfl, rfl, rfl⟩
  | reserved marker => simp [Slot.declared]

theorem listedSlot (bounded : s.slots.size ≤ UInt32.size) :
    k ∈ s.kinds ↔ s.slotAt k.tag = some (.kind k.name k.category) := by
  simp only [kinds, List.mem_filterMap, Prod.exists, List.mk_mem_zipIdx_iff_getElem?,
    Array.getElem?_toList, declaredKind]
  constructor
  · rintro ⟨slot, position, found, rfl, tag⟩
    have inside := (Array.getElem?_eq_some_iff.mp found).1
    have exact : k.tag.toNat = position := by
      rw [tag]
      exact Nat.mod_eq_of_lt (Nat.lt_of_lt_of_le inside bounded)
    rw [slotAt, exact, found]
  · intro found
    exact ⟨_, k.tag.toNat, found, rfl, UInt32.ofNat_toNat.symm⟩

theorem kindsAscend (bounded : s.slots.size ≤ UInt32.size) :
    s.kinds.Pairwise (fun k l => k.tag < l.tag) := by
  have positions : (s.slots.toList.zipIdx.map Prod.snd).Pairwise (· < ·) := by
    rw [List.zipIdx_map_snd]
    exact List.pairwise_lt_range'
  refine List.pairwise_filterMap.mpr ((List.pairwise_map.mp positions).imp_of_mem ?_)
  rintro ⟨slot, i⟩ ⟨other, j⟩ here there before k first l second
  obtain ⟨_, tag⟩ := declaredKind.mp first
  obtain ⟨_, later⟩ := declaredKind.mp second
  have inside {slot : Slot} {i : Nat} (member : (slot, i) ∈ s.slots.toList.zipIdx) :
      (UInt32.ofNat i).toNat = i := by
    rw [List.mk_mem_zipIdx_iff_getElem?, Array.getElem?_toList] at member
    exact Nat.mod_eq_of_lt
      (Nat.lt_of_lt_of_le (Array.getElem?_eq_some_iff.mp member).1 bounded)
  rw [tag, later, UInt32.lt_iff_toNat_lt, inside here, inside there]
  exact before

theorem listedKind (bounded : s.slots.size ≤ UInt32.size) :
    k ∈ s.kinds ↔ s.kindAt k.tag = some k := by
  rw [listedSlot bounded, kindSlot]
  exact (and_iff_left rfl).symm

theorem listedNamed (sound : s.Sound) (listed : k ∈ s.kinds) : s.tagNamed k.name = .ok k.tag :=
  (namedIff sound.indexed).mpr (nameSlot.mpr ⟨_, (listedSlot sound.bounded).mp listed⟩)

theorem declaredListed (sound : s.Sound) {name : String} :
    (∃ t, s.nameAt t = some name) ↔ ∃ k ∈ s.kinds, k.name = name := by
  constructor
  · rintro ⟨t, declared⟩
    obtain ⟨category, found⟩ := nameSlot.mp declared
    exact ⟨⟨t, name, category⟩, (listedSlot sound.bounded).mpr found, rfl⟩
  · rintro ⟨k, listed, rfl⟩
    exact ⟨k.tag, nameSlot.mpr ⟨_, (listedSlot sound.bounded).mp listed⟩⟩

theorem kindNamesApart (sound : s.Sound) : (s.kinds.map KindInfo.name).Nodup := by
  refine List.pairwise_map.mpr ((kindsAscend sound.bounded).imp_of_mem ?_)
  intro k l first second before same
  have named := listedNamed sound first
  rw [same, listedNamed sound second] at named
  rw [Except.ok.inj named] at before
  exact absurd before (UInt32.lt_irrefl _)

theorem listedApart (sound : s.Sound) {l : KindInfo} (here : k ∈ s.kinds) (there : l ∈ s.kinds)
    (same : l.name = k.name) : l = k :=
  List.inj_on_of_nodup_map (kindNamesApart sound) there here same

end TaggedHeap.TagSpace
