import Mathlib.Algebra.Group.Nat.Defs
import TaggedHeap.Proofs.WordHeap.Walking
import TaggedHeap.WordHeap.Mark

/-! Marking a heap of linked objects. What the marker does is stated once more as a loop that has no way
to fail, and what it has to find as the least set that holds the roots and is closed under pointer
fields; between the two stands an invariant of the marked objects and the stack. -/
namespace TaggedHeap

namespace WordHeap

variable {α ω : Type}

inductive Traces (m : ObjectModel α ω) (h : WordHeap) (start : Nat) : List Word → Prop where
  | of {t tail layout size visited pointers} (here : h.imageAt start = wordOfTag t :: tail)
      (known : m.layoutOf t = .ok layout)
      (traced : layout.trace (wordOfTag t :: tail) = ⟨some size, visited⟩)
      (read : visited.mapM (fun offset => (wordOfTag t :: tail)[offset.toNat]?) = some pointers) :
      Traces m h start pointers

inductive Marks (m : ObjectModel α ω) (h : WordHeap) : List Nat → List Word → List Nat → Prop where
  | done {marked} : Marks m h marked [] marked
  | null {marked stack last} (rest : Marks m h marked stack last) :
      Marks m h marked (null :: stack) last
  | again {marked top stack last} (seen : top.toNat ∈ marked) (rest : Marks m h marked stack last) :
      Marks m h marked (top :: stack) last
  | object {marked top stack pointers last} (object : top ≠ WordHeap.null)
      (unseen : top.toNat ∉ marked) (traces : Traces m h top.toNat pointers)
      (rest : Marks m h (marked ++ [top.toNat]) (pointers.reverse ++ stack) last) :
      Marks m h marked (top :: stack) last

inductive Refers (m : ObjectModel α ω) (h : WordHeap) (start : Nat) (w : Word) : Prop where
  | of {t tail layout offset} (here : h.imageAt start = wordOfTag t :: tail)
      (known : m.layoutOf t = .ok layout)
      (visited : offset ∈ (layout.trace (wordOfTag t :: tail)).visited)
      (holds : (wordOfTag t :: tail)[offset.toNat]? = some w) : Refers m h start w

structure Linked (m : ObjectModel α ω) (h : WordHeap) (images : List (List Word)) : Prop where
  objects : ∀ image ∈ images, IsObject m image
  words : h.words = images.flatten
  small : h.size < 2 ^ 64 - 1
  fields : ∀ start ∈ startsFrom 0 images, ∀ w, Refers m h start w →
    w = null ∨ w.toNat ∈ startsFrom 0 images

structure Closed (m : ObjectModel α ω) (h : WordHeap) (roots : List Word) (kept : Nat → Prop) :
    Prop where
  roots : ∀ w ∈ roots, w ≠ null → kept w.toNat
  fields : ∀ start w, kept start → Refers m h start w → w ≠ null → kept w.toNat

inductive Reached (m : ObjectModel α ω) (h : WordHeap) (roots : List Word) : Nat → Prop where
  | root {w} (member : w ∈ roots) (object : w ≠ null) : Reached m h roots w.toNat
  | field {start w} (reached : Reached m h roots start) (refers : Refers m h start w)
      (object : w ≠ null) : Reached m h roots w.toNat

variable {r : Reading} {m : ObjectModel α ω} {h : WordHeap} {images : List (List Word)}
  {roots stack pointers : List Word} {start : Nat} {marked : List Nat} {top w : Word}

theorem reachedKept {kept : Nat → Prop} (closed : Closed m h roots kept)
    (reached : Reached m h roots start) : kept start := by
  induction reached with
  | root member object => exact closed.roots _ member object
  | field _ refers object ih => exact closed.fields _ _ ih refers object

theorem reachedSame {other : List Word} (same : ∀ w, w ∈ other ↔ w ∈ roots)
    (reached : Reached m h other start) : Reached m h roots start :=
  reachedKept ⟨fun w member => .root ((same w).mp member), fun _ _ => .field⟩ reached

theorem markFromNil : markFrom r m h marked [] = ⟨marked, none⟩ := by
  rw [markFrom]

theorem markFromSkip (skipped : nowhere r h top ∨ top.toNat ∈ marked) :
    markFrom r m h marked (top :: stack) = markFrom r m h marked stack := by
  rw [markFrom, dif_pos skipped]

theorem markFromFault {fault : HeapFault} (fresh : ¬ (nowhere r h top ∨ top.toNat ∈ marked))
    (failed : pointersAt r m h top.toNat = .error fault) :
    markFrom r m h marked (top :: stack) = ⟨marked ++ [top.toNat], some fault⟩ := by
  rw [markFrom, dif_neg fresh]
  split <;> simp_all

theorem markFromStep (fresh : ¬ (nowhere r h top ∨ top.toNat ∈ marked))
    (read : pointersAt r m h top.toNat = .ok pointers) : markFrom r m h marked (top :: stack) =
      markFrom r m h (marked ++ [top.toNat]) (pointers.reverse ++ stack) := by
  rw [markFrom, dif_neg fresh]
  split <;> simp_all

theorem readAll {image offsets : List Word} (inside : ∀ p ∈ offsets, p.toNat < image.length) :
    ∃ read, offsets.mapM (fun offset => image[offset.toNat]?) = some read := by
  induction offsets with
  | nil => exact ⟨[], rfl⟩
  | cons offset rest ih =>
    obtain ⟨read, later⟩ := ih fun p member => inside p (List.mem_cons_of_mem _ member)
    have first := List.getElem?_eq_getElem (inside offset List.mem_cons_self)
    exact ⟨image.get ⟨offset.toNat, inside offset List.mem_cons_self⟩ :: read, by
      rw [List.mapM_cons, first, later]; rfl⟩

theorem readMem {image offsets read : List Word}
    (all : offsets.mapM (fun offset => image[offset.toNat]?) = some read) :
    w ∈ read ↔ ∃ offset ∈ offsets, image[offset.toNat]? = some w := by
  induction offsets generalizing read with
  | nil =>
    cases all
    simp
  | cons offset rest ih =>
    simp only [List.mapM_cons, bind, Option.bind_eq_some_iff] at all
    obtain ⟨first, found, later, reads, last⟩ := all
    cases last
    simp [ih reads, found, eq_comm]

theorem tracesPointers (traces : Traces m h start pointers) :
    pointersAt r m h start = .ok pointers := by
  cases traces with
  | @of t tail layout size visited _ here known traced read =>
    have located : layoutAt r m start (wordOfTag t) = .ok layout :=
      layoutAtOk.mpr ⟨t, tagOfWordOfTag r t, known⟩
    simp only [pointersAt, here, located, traced, read]

theorem tracesRefers (traces : Traces m h start pointers) :
    w ∈ pointers ↔ Refers m h start w := by
  obtain ⟨here, known, traced, read⟩ := traces
  rw [readMem read]
  constructor
  · intro facts
    obtain ⟨offset, visited, holds⟩ := facts
    exact .of here known (by rw [traced]; exact visited) holds
  · intro refers
    obtain ⟨here', known', visited, holds⟩ := refers
    rw [here] at here'
    obtain ⟨header, rfl⟩ := List.cons.inj here'
    obtain rfl := wordOfTagInjective header
    cases known.symm.trans known'
    rw [traced] at visited
    exact ⟨_, visited, holds⟩

theorem startImage {base : Nat} (member : start ∈ startsFrom base images) :
    base ≤ start ∧ ∃ image ∈ images, ∃ later, images.flatten.drop (start - base) = image ++ later := by
  induction images generalizing base with
  | nil => cases member
  | cons image rest ih =>
    rcases List.mem_cons.mp member with rfl | member
    · refine ⟨Nat.le_refl _, image, List.mem_cons_self, rest.flatten, ?_⟩
      rw [Nat.sub_self, List.drop_zero, List.flatten_cons]
    · obtain ⟨beyond, other, inside, later, found⟩ := ih member
      refine ⟨by omega, other, List.mem_cons_of_mem _ inside, later, ?_⟩
      have split : start - base = image.length + (start - (base + image.length)) := by omega
      rw [split, List.flatten_cons, List.drop_length_add_append]
      exact found

theorem linkedTraces (finished : m.Finished) (linked : Linked m h images)
    (member : start ∈ startsFrom 0 images) :
    start < h.size ∧ ∃ pointers, Traces m h start pointers := by
  obtain ⟨_, image, inside, later, found⟩ := startImage member
  obtain ⟨t, tail, rfl, below, sizes⟩ := linked.objects image inside
  have here : h.imageAt start = wordOfTag t :: (tail ++ later) := by
    rw [imageAt, linked.words]
    exact found
  obtain ⟨layout, known⟩ := ObjectModel.layoutKnown finished below
  obtain ⟨size, sized, _⟩ := Option.map_eq_some_iff.mp (sizes layout known)
  have whole : layout.objectSize (wordOfTag t :: (tail ++ later)) = some size :=
    Layout.sizeAppend sized
  obtain ⟨claimed, fits⟩ := Layout.sizedIff.mp whole
  have traced : layout.trace (wordOfTag t :: (tail ++ later)) =
      ⟨some size, layout.pointerFields size⟩ := by
    rw [Layout.trace, whole]
  have offsets : ∀ p ∈ layout.pointerFields size,
      p.toNat < (wordOfTag t :: (tail ++ later)).length := by
    intro p visited
    have proper := ObjectModel.layoutProper finished known
    have low := UInt64.lt_iff_toNat_lt.mp (Layout.fieldsInside proper claimed visited).2
    exact Nat.lt_of_lt_of_le low fits
  obtain ⟨pointers, read⟩ := readAll offsets
  exact ⟨(insideOf here).1, pointers, .of here known traced read⟩

theorem reachedStart (linked : Linked m h images)
    (rooted : ∀ w ∈ roots, w = null ∨ w.toNat ∈ startsFrom 0 images)
    (reached : Reached m h roots start) : start ∈ startsFrom 0 images := by
  refine reachedKept ⟨fun w member object => ?_, fun start w kept refers object => ?_⟩ reached
  · exact (rooted w member).resolve_left object
  · exact (linked.fields start kept w refers).resolve_left object

structure Progress (m : ObjectModel α ω) (h : WordHeap) (roots : List Word) (marked : List Nat)
    (stack : List Word) : Prop where
  distinct : marked.Nodup
  sound : ∀ start ∈ marked, Reached m h roots start
  waiting : ∀ w ∈ stack, w ≠ null → Reached m h roots w.toNat
  rooted : ∀ w ∈ roots, w ≠ null → w.toNat ∈ marked ∨ w ∈ stack
  closed : ∀ start ∈ marked, ∀ w, Refers m h start w → w ≠ null → w.toNat ∈ marked ∨ w ∈ stack

theorem progressStart (m : ObjectModel α ω) (h : WordHeap) (roots : List Word) :
    Progress m h roots [] roots.reverse where
  distinct := .nil
  sound _ member := nomatch member
  waiting _ member := .root (List.mem_reverse.mp member)
  rooted _ member _ := .inr (List.mem_reverse.mpr member)
  closed _ member := nomatch member

theorem progressSkip (progress : Progress m h roots marked (top :: stack))
    (skipped : top ≠ null → top.toNat ∈ marked) : Progress m h roots marked stack := by
  have popped : ∀ {w}, w ≠ null → w.toNat ∈ marked ∨ w ∈ top :: stack →
      w.toNat ∈ marked ∨ w ∈ stack := by
    intro w object either
    rcases either with seen | waits
    · exact .inl seen
    · rcases List.mem_cons.mp waits with rfl | later
      · exact .inl (skipped object)
      · exact .inr later
  exact ⟨progress.distinct, progress.sound,
    fun w member => progress.waiting w (List.mem_cons_of_mem _ member),
    fun w member object => popped object (progress.rooted w member object),
    fun start member w refers object => popped object (progress.closed start member w refers object)⟩

theorem progressMark (progress : Progress m h roots marked (top :: stack)) (object : top ≠ null)
    (unseen : top.toNat ∉ marked) (traces : Traces m h top.toNat pointers) :
    Progress m h roots (marked ++ [top.toNat]) (pointers.reverse ++ stack) := by
  have reached : Reached m h roots top.toNat := progress.waiting top List.mem_cons_self object
  have pushed : ∀ {w}, w.toNat ∈ marked ∨ w ∈ top :: stack →
      w.toNat ∈ marked ++ [top.toNat] ∨ w ∈ pointers.reverse ++ stack := by
    intro w either
    rcases either with seen | waits
    · exact .inl (List.mem_append_left _ seen)
    · rcases List.mem_cons.mp waits with rfl | later
      · exact .inl (List.mem_append_right _ (List.mem_singleton_self _))
      · exact .inr (List.mem_append_right _ later)
  refine ⟨?distinct, fun start member => ?sound, fun w member object => ?waiting,
    fun w member object => pushed (progress.rooted w member object),
    fun start member w refers object => ?closed⟩
  case distinct =>
    refine List.nodup_append.mpr ⟨progress.distinct, List.pairwise_singleton _ _, fun start before => ?_⟩
    rintro _ here rfl
    exact unseen (List.mem_singleton.mp here ▸ before)
  case sound =>
    rcases List.mem_append.mp member with before | here
    · exact progress.sound start before
    · exact List.mem_singleton.mp here ▸ reached
  case waiting =>
    rcases List.mem_append.mp member with field | before
    · exact .field reached ((tracesRefers traces).mp (List.mem_reverse.mp field)) object
    · exact progress.waiting w (List.mem_cons_of_mem _ before) object
  case closed =>
    rcases List.mem_append.mp member with before | here
    · exact pushed (progress.closed start before w refers object)
    · obtain rfl := List.mem_singleton.mp here
      have field : w ∈ pointers := (tracesRefers traces).mpr refers
      exact .inr (List.mem_append_left _ (List.mem_reverse.mpr field))

theorem progressDone (progress : Progress m h roots marked []) :
    Closed m h roots (· ∈ marked) where
  roots w member object := (progress.rooted w member object).resolve_right List.not_mem_nil
  fields start w kept refers object :=
    (progress.closed start kept w refers object).resolve_right List.not_mem_nil

theorem waitingTraces (finished : m.Finished) (linked : Linked m h images)
    (rooted : ∀ w ∈ roots, w = null ∨ w.toNat ∈ startsFrom 0 images)
    (progress : Progress m h roots marked (top :: stack)) (object : top ≠ null) :
    top.toNat < h.size ∧ ∃ pointers, Traces m h top.toNat pointers := by
  have reached := progress.waiting top List.mem_cons_self object
  exact linkedTraces finished linked (reachedStart linked rooted reached)

-- On a linked heap either reading passes over null, and over nothing else that waits.
theorem waitingNowhere (r : Reading) (finished : m.Finished) (linked : Linked m h images)
    (rooted : ∀ w ∈ roots, w = null ∨ w.toNat ∈ startsFrom 0 images)
    (progress : Progress m h roots marked (top :: stack)) : nowhere r h top ↔ top = null := by
  cases r with
  | strict => simp [nowhere]
  | lenient =>
    have small := linked.small
    have last : null.toNat = 2 ^ 64 - 1 := rfl
    rw [nowhere, decide_eq_true_iff]
    constructor
    · intro beyond
      refine Decidable.byContradiction fun object => ?_
      have inside := (waitingTraces finished linked rooted progress object).1
      omega
    · intro same
      rw [same]
      omega

theorem progressRun (r : Reading) (finished : m.Finished) (linked : Linked m h images)
    (rooted : ∀ w ∈ roots, w = null ∨ w.toNat ∈ startsFrom 0 images)
    (progress : Progress m h roots marked stack) : ∃ last,
      markFrom r m h marked stack = ⟨last, none⟩ ∧ Marks m h marked stack last ∧
      Progress m h roots last [] := by
  -- The recursion of the marker: each call marks an object or shortens the stack.
  induction marked, stack using markFrom.induct r m h with
  | case1 marked =>
    exact ⟨marked, markFromNil, .done, progress⟩
  | case2 marked top stack skipped ih =>
    have passed : top = null ∨ top.toNat ∈ marked :=
      skipped.imp_left (waitingNowhere r finished linked rooted progress).mp
    obtain ⟨last, run, marks, done⟩ := ih (progressSkip progress passed.resolve_left)
    refine ⟨last, (markFromSkip skipped).trans run, ?_, done⟩
    rcases passed with rfl | seen
    · exact .null marks
    · exact .again seen marks
  | case3 marked top stack fresh fault failed =>
    have object := mt (waitingNowhere r finished linked rooted progress).mpr (not_or.mp fresh).1
    obtain ⟨_, pointers, found⟩ := waitingTraces finished linked rooted progress object
    exact nomatch failed.symm.trans (tracesPointers found)
  | case4 marked top stack fresh pointers read ih =>
    have object := mt (waitingNowhere r finished linked rooted progress).mpr (not_or.mp fresh).1
    have unseen := (not_or.mp fresh).2
    obtain ⟨_, others, found⟩ := waitingTraces finished linked rooted progress object
    cases read.symm.trans (tracesPointers found)
    obtain ⟨last, run, marks, done⟩ := ih (progressMark progress object unseen found)
    exact ⟨last, (markFromStep fresh read).trans run, .object object unseen found marks, done⟩

theorem ascendingSame {a b : Marking} (distinct : a.order.Nodup) (distinct' : b.order.Nodup)
    (same : ∀ start, start ∈ a.order ↔ start ∈ b.order) : a.ascending = b.ascending := by
  have sorted : ∀ k : Marking, k.ascending.Pairwise (· ≤ ·) := by
    intro k
    have ordered : (k.order.mergeSort (· ≤ ·)).Pairwise fun x y => decide (x ≤ y) = true :=
      List.pairwise_mergeSort (fun _ _ _ => by simpa using Nat.le_trans)
        (fun x y => by simpa using Nat.le_total x y) k.order
    exact ordered.imp of_decide_eq_true
  have rearranged : a.order.Perm b.order := (List.perm_ext_iff_of_nodup distinct distinct').mpr same
  refine List.Perm.eq_of_pairwise (fun x y _ _ => Nat.le_antisymm) (sorted a) (sorted b) ?_
  exact (List.mergeSort_perm _ _).trans (rearranged.trans (List.mergeSort_perm _ _).symm)

end WordHeap

/-- Marking a linked heap, by either reading, comes to an end without a fault, and what it has marked then
is the least set that holds the roots and is closed under the fields that traces visit; so neither the
order nor the repetition of the roots matters. -/
theorem finishedHeapMarks {α ω : Type} {m : ObjectModel α ω} (finished : m.Finished)
    (r : WordHeap.Reading) {h : WordHeap} {images : List (List Word)}
    (linked : WordHeap.Linked m h images) {roots : List Word}
    (rooted : ∀ w ∈ roots, w = WordHeap.null ∨ w.toNat ∈ WordHeap.startsFrom 0 images) :
    ∃ order, WordHeap.mark r m h roots = ⟨order, none⟩ ∧
      WordHeap.Marks m h [] roots.reverse order ∧ order.Nodup ∧
      WordHeap.Closed m h roots (· ∈ order) ∧
      (∀ kept, WordHeap.Closed m h roots kept → ∀ start ∈ order, kept start) ∧
      ∀ other : List Word, (∀ w, w ∈ other ↔ w ∈ roots) → (WordHeap.mark r m h other).stop = none ∧
        (WordHeap.mark r m h other).ascending = (WordHeap.mark r m h roots).ascending := by
  obtain ⟨order, run, marks, done⟩ :=
    WordHeap.progressRun r finished linked rooted (WordHeap.progressStart m h roots)
  have closed := WordHeap.progressDone done
  refine ⟨order, run, marks, done.distinct, closed,
    fun kept closed start member => WordHeap.reachedKept closed (done.sound start member),
    fun other same => ?_⟩
  obtain ⟨order', run', _, done'⟩ := WordHeap.progressRun r finished linked
    (fun w member => rooted w ((same w).mp member)) (WordHeap.progressStart m h other)
  have stops : WordHeap.mark r m h other = ⟨order', none⟩ := run'
  have stopsHere : WordHeap.mark r m h roots = ⟨order, none⟩ := run
  rw [stops, stopsHere]
  refine ⟨rfl, WordHeap.ascendingSame done'.distinct done.distinct fun start => ⟨fun member => ?_,
    fun member => ?_⟩⟩
  · exact WordHeap.reachedKept closed (WordHeap.reachedSame same (done'.sound start member))
  · exact WordHeap.reachedKept (WordHeap.progressDone done')
      (WordHeap.reachedSame (fun w => (same w).symm) (done.sound start member))

-- A pair and a box that refer to each other, a toplevel that refers to the box and to itself, and
-- a pair that nothing refers to.
def miniatureRing : List (List Word) :=
  [[4, 3, WordHeap.null], [5, 0], [0, 2, 3, 5], [4, 0, 0]]

def ringFields : Nat → List Word
  | 0 => [3, WordHeap.null]
  | 3 => [0]
  | 5 => [3, 5]
  | _ => [0, 0]

theorem ringField {start : Nat} {w : Word} (field : w ∈ ringFields start) :
    w = WordHeap.null ∨ w = 0 ∨ w = 3 ∨ w = 5 := by
  unfold ringFields at field
  split at field <;> simp only [List.mem_cons, List.not_mem_nil, or_false] at field <;> grind

theorem ringStarts {start : Nat} :
    start ∈ WordHeap.startsFrom 0 miniatureRing ↔ start = 0 ∨ start = 3 ∨ start = 5 ∨ start = 9 := by
  simp [WordHeap.startsFrom, miniatureRing]

theorem miniaturePairLayout : miniatureModel.layoutOf 4 = .ok Standard.cellLayout :=
  ObjectModel.layoutStored.mpr (by decide +kernel)

theorem miniatureBoxLayout : miniatureModel.layoutOf 5 = .ok Standard.boxLayout :=
  ObjectModel.layoutStored.mpr (by decide +kernel)

theorem miniatureToplevelLayout : miniatureModel.layoutOf 0 = .ok Standard.recordLayout :=
  ObjectModel.layoutStored.mpr (by decide +kernel)

theorem ringRefers {start : Nat} {w : Word} (member : start ∈ WordHeap.startsFrom 0 miniatureRing) :
    WordHeap.Refers miniatureModel ⟨miniatureRing.flatten⟩ start w ↔ w ∈ ringFields start := by
  have traces : WordHeap.Traces miniatureModel ⟨miniatureRing.flatten⟩ start (ringFields start) := by
    rcases ringStarts.mp member with rfl | rfl | rfl | rfl
    · exact .of rfl miniaturePairLayout rfl rfl
    · exact .of rfl miniatureBoxLayout rfl rfl
    · exact .of rfl miniatureToplevelLayout rfl rfl
    · exact .of rfl miniaturePairLayout rfl rfl
  exact (WordHeap.tracesRefers traces).symm

theorem ringLinked : WordHeap.Linked miniatureModel ⟨miniatureRing.flatten⟩ miniatureRing where
  objects := by
    simp only [miniatureRing, List.forall_mem_cons, List.not_mem_nil, false_imp_iff, implies_true,
      and_true]
    refine ⟨?_, ?_, ?_, ?_⟩
    · exact WordHeap.objectOf (by decide +kernel) miniaturePairLayout (by decide)
    · exact WordHeap.objectOf (by decide +kernel) miniatureBoxLayout (by decide)
    · exact WordHeap.objectOf (by decide +kernel) miniatureToplevelLayout (by decide)
    · exact WordHeap.objectOf (by decide +kernel) miniaturePairLayout (by decide)
  words := rfl
  small := by decide
  fields start member w refers := by
    rcases ringField ((ringRefers member).mp refers) with rfl | rfl | rfl | rfl <;> decide

theorem miniatureMarks : ∃ order,
    WordHeap.mark .strict miniatureModel ⟨miniatureRing.flatten⟩ [5, WordHeap.null, 5] =
      ⟨order, none⟩ ∧
    (∀ start, start ∈ order ↔ start ∈ [0, 3, 5]) ∧
    (WordHeap.mark .strict miniatureModel ⟨miniatureRing.flatten⟩ [WordHeap.null, 5]).ascending =
      (WordHeap.mark .strict miniatureModel ⟨miniatureRing.flatten⟩
        [5, WordHeap.null, 5]).ascending := by
  have rooted : ∀ w ∈ [5, WordHeap.null, 5],
      w = WordHeap.null ∨ w.toNat ∈ WordHeap.startsFrom 0 miniatureRing := by
    simp only [List.forall_mem_cons]
    exact ⟨by decide, by decide, by decide, nofun⟩
  obtain ⟨order, run, _, _, closed, least, same⟩ :=
    finishedHeapMarks miniatureModelFinished .strict ringLinked rooted
  have kept : WordHeap.Closed miniatureModel ⟨miniatureRing.flatten⟩ [5, WordHeap.null, 5]
      (· ∈ [0, 3, 5]) := by
    refine ⟨fun w member object => ?_, fun start w kept refers object => ?_⟩
    · have same : w = 5 := by simpa [object] using member
      simp [same]
    · have member : start ∈ WordHeap.startsFrom 0 miniatureRing := by
        simp only [List.mem_cons, List.not_mem_nil, or_false] at kept
        exact ringStarts.mpr (by omega)
      rcases ringField ((ringRefers member).mp refers) with none | rfl | rfl | rfl
      · exact absurd none object
      all_goals decide
  refine ⟨order, run, fun start => ⟨least _ kept start, fun member => ?_⟩, (same _ (by simp)).2⟩
  have toplevel : 5 ∈ order := closed.roots 5 (by decide) (by decide)
  have box : 3 ∈ order := closed.fields 5 3 toplevel
    ((ringRefers (ringStarts.mpr (by decide))).mpr (by decide)) (by decide)
  have pair : 0 ∈ order := closed.fields 3 0 box
    ((ringRefers (ringStarts.mpr (by decide))).mpr (by decide)) (by decide)
  simp only [List.mem_cons, List.not_mem_nil, or_false] at member
  rcases member with rfl | rfl | rfl <;> assumption

end TaggedHeap
