import TaggedHeap.Proofs.Layout.Locality

/-! The check of a layout against what it is for. It goes through pointer offsets with only the last one
in hand, so that it names the first offset with which the offsets up to there are no longer proper.
Of a fixed layout with a header it tells just what the trace of any image that is long enough would
show, be it one image or all of them. -/
namespace TaggedHeap.Layout

variable {l : Layout} {words last offset : Word} {pointers before after image : List Word}
  {reason : LayoutFault}

theorem checkPointersAppend (passed : checkPointers words last before = .ok ()) :
    checkPointers words last (before ++ after) =
      checkPointers words (before.getLastD last) after := by
  induction before generalizing last with
  | nil => rfl
  | cons first rest ih =>
    simp only [checkPointers] at passed
    split at passed
    · cases passed
    · rename_i accepted
      rw [List.cons_append, checkPointers, if_neg accepted, ih passed, List.getLastD_cons]

theorem checkPointersNames (failed : checkPointers words last pointers = .error reason) :
    ∃ before offset after, pointers = before ++ offset :: after ∧
      checkPointers words last before = .ok () ∧
      checkPointers words last (before ++ [offset]) ≠ .ok () ∧
      reason = .pointerOffset offset words := by
  induction pointers generalizing last with
  | nil => cases failed
  | cons first rest ih =>
    simp only [checkPointers] at failed
    split at failed
    · rename_i refused
      -- the offset named is the first one here; if a later one is, this one goes before it below
      cases failed
      refine ⟨[], first, rest, rfl, rfl, ?_, rfl⟩
      simp [checkPointers, refused]
    · rename_i accepted
      obtain ⟨before, offset, after, rfl, passed, broken, same⟩ := ih failed
      refine ⟨first :: before, offset, after, rfl, ?_, ?_, same⟩
      · rw [checkPointers, if_neg accepted, passed]
      · rwa [List.cons_append, checkPointers, if_neg accepted]

theorem checkPointersStops (passed : checkPointers words last before = .ok ())
    (broken : checkPointers words last (before ++ [offset]) ≠ .ok ()) :
    checkPointers words last (before ++ offset :: after) = .error (.pointerOffset offset words) := by
  rw [checkPointersAppend passed, checkPointers] at broken ⊢
  split
  · rfl
  · rename_i accepted
    exact absurd (by rw [if_neg accepted, checkPointers]) broken

theorem validateFixed (headed : 0 < words) :
    (fixed words pointers).validate = checkPointers words 0 pointers := by
  rw [validate, if_neg (UInt64.pos_iff_ne_zero.mp headed)]

theorem pointersProper (headed : 0 < words) :
    checkPointers words 0 pointers = .ok () ↔ (fixed words pointers).Proper := by
  rw [← validateFixed headed, validateIff]

inductive Rejects : Layout → LayoutFault → Prop where
  | atomicHeader : Rejects (.atomic 0) .atomicWithoutHeader
  | fixedHeader (pointers : List Word) : Rejects (.fixed 0 pointers) .fixedWithoutHeader
  | pointer {words offset : Word} {before after : List Word}
      (proper : (fixed words before).Proper)
      (broken : ¬ (fixed words (before ++ [offset])).Proper) :
      Rejects (.fixed words (before ++ offset :: after)) (.pointerOffset offset words)
  | lengthWord {lead position : Word} {traced : Bool}
      (outside : ¬ (array lead position traced).Proper) :
      Rejects (.array lead position traced) (.lengthWord position lead)

theorem rejected (failed : l.validate = .error reason) : l.Rejects reason := by
  cases l with
  | atomic words =>
    simp only [validate] at failed
    split at failed <;> cases failed
    rename_i headless
    subst headless
    exact .atomicHeader
  | fixed words pointers =>
    by_cases headed : 0 < words
    · rw [validateFixed headed] at failed
      obtain ⟨before, offset, after, rfl, passed, broken, rfl⟩ := checkPointersNames failed
      rw [pointersProper headed] at passed
      rw [Ne, pointersProper headed] at broken
      exact .pointer passed broken
    · have headless : words = 0 := Decidable.not_not.mp (mt UInt64.pos_iff_ne_zero.mpr headed)
      subst headless
      cases failed
      exact .fixedHeader pointers
  | array lead position traced =>
    have outside : ¬ (array lead position traced).Proper := fun proper => by
      rw [validateIff.mpr proper] at failed
      cases failed
    simp only [validate] at failed
    split at failed <;> cases failed
    exact .lengthWord outside

theorem rejectsFault (rejects : l.Rejects reason) : l.validate = .error reason := by
  cases rejects with
  | atomicHeader => rfl
  | fixedHeader pointers => rfl
  | pointer proper broken =>
    have headed := proper.1
    rw [validateFixed headed]
    exact checkPointersStops ((pointersProper headed).mpr proper) (mt (pointersProper headed).mp broken)
  | @lengthWord lead position traced outside =>
    rw [← validateIff] at outside
    simp only [validate] at outside ⊢
    split
    · rfl
    · rename_i accepted
      exact absurd (if_neg accepted) outside

theorem rejectsIff : l.validate = .error reason ↔ l.Rejects reason := ⟨rejected, rejectsFault⟩

theorem improperRejected (improper : ¬ l.Proper) : ∃ reason, l.Rejects reason := by
  cases checked : l.validate with
  | ok => exact absurd (validateIff.mp checked) improper
  | error reason => exact ⟨reason, rejected checked⟩

structure VisitsInOrder (l : Layout) (image : List Word) : Prop where
  apart : (l.trace image).visited.Nodup
  ascending : (l.trace image).visited.Pairwise (· ≤ ·)
  pastHeader : ∀ p ∈ (l.trace image).visited, 1 ≤ p
  inObject : ∃ size, (l.trace image).size = some size ∧ ∀ p ∈ (l.trace image).visited, p < size

theorem increasingIff {offsets : List Word} :
    offsets.Pairwise (· < ·) ↔ offsets.Nodup ∧ offsets.Pairwise (· ≤ ·) := by
  rw [List.Nodup, ← List.pairwise_and_iff]
  refine List.Pairwise.iff fun a b => ?_
  rw [UInt64.lt_iff_le_and_ne, and_comm]

theorem pastHeaderIff {p : Word} : 1 ≤ p ↔ 0 < p := by
  rw [UInt64.le_iff_toNat_le, UInt64.lt_iff_toNat_lt]
  rfl

theorem fixedTrace (long : words.toNat ≤ image.length) :
    (fixed words pointers).trace image = ⟨some words, pointers⟩ :=
  traceOf (sizedIff.mpr ⟨rfl, long⟩)

theorem fixedVisits (headed : 0 < words) (long : words.toNat ≤ image.length) :
    (fixed words pointers).VisitsInOrder image ↔ (fixed words pointers).Proper := by
  have traced : (fixed words pointers).trace image = ⟨some words, pointers⟩ := fixedTrace long
  constructor
  · intro visits
    obtain ⟨apart, ascending, pastHeader, size, sized, inObject⟩ := visits
    rw [traced] at apart ascending pastHeader sized inObject
    cases sized
    exact ⟨headed, increasingIff.mpr ⟨apart, ascending⟩,
      fun p member => ⟨pastHeaderIff.mp (pastHeader p member), inObject p member⟩⟩
  · intro proper
    obtain ⟨_, increasing, bounds⟩ := proper
    obtain ⟨apart, ascending⟩ := increasingIff.mp increasing
    refine ⟨?_, ?_, ?_, words, ?_⟩ <;> rw [traced]
    · exact apart
    · exact ascending
    · exact fun p member => pastHeaderIff.mpr (bounds p member).1
    · exact ⟨rfl, fun p member => (bounds p member).2⟩

theorem fixedVisitsAll (headed : 0 < words) : (fixed words pointers).Proper ↔
    ∀ image : List Word, words.toNat ≤ image.length →
      (fixed words pointers).VisitsInOrder image := by
  constructor
  · intro proper image long
    exact (fixedVisits headed long).mpr proper
  · intro visits
    -- there are images of every length, so that the visits are not orderly for want of one
    have long : words.toNat ≤ (List.replicate words.toNat (0 : Word)).length := by simp
    exact (fixedVisits headed long).mp (visits _ long)

example : (fixed 0 []).validate = .error .fixedWithoutHeader ∧
    (fixed 0 []).trace [] = ⟨some 0, []⟩ := ⟨rfl, by decide⟩

end TaggedHeap.Layout
