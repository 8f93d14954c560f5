import TaggedHeap.Proofs.WordHeap.Marking

/-! The two readings of a heap. They differ only where a header is too large for a tag and where a
pointer leads to no word. So what a strict reading gets through, or stops at for another reason, a
lenient one does, too. -/
namespace TaggedHeap

namespace WordHeap

variable {α ω : Type} {m : ObjectModel α ω} {h : WordHeap} {start : Nat} {words stack : List Word}
  {marked : List Nat}

theorem layoutRead (m : ObjectModel α ω) (start : Nat) (tagWord : Word) :
    layoutAt .strict m start tagWord = .error (.untagged start) ∨
      layoutAt .lenient m start tagWord = layoutAt .strict m start tagWord := by
  by_cases fits : tagWord.toNat < UInt32.size
  · exact .inr (by simp [layoutAt, tagOfWord, fits])
  · exact .inl (by simp [layoutAt, tagOfWord, fits])

theorem sizeRead (m : ObjectModel α ω) (start : Nat) (tagWord : Word) (rest : List Word) :
    sizeAt .strict m start tagWord rest = .error (.untagged start) ∨
      sizeAt .lenient m start tagWord rest = sizeAt .strict m start tagWord rest := by
  unfold sizeAt
  rcases layoutRead m start tagWord with untagged | same
  · exact .inl (by rw [untagged])
  · exact .inr (by rw [same])

theorem pointersRead (m : ObjectModel α ω) (h : WordHeap) (start : Nat) :
    pointersAt .strict m h start = .error (.untagged start) ∨
      pointersAt .lenient m h start = pointersAt .strict m h start := by
  unfold pointersAt
  cases h.imageAt start with
  | nil => exact .inr rfl
  | cons tagWord rest =>
    rcases layoutRead m start tagWord with untagged | same
    · exact .inl (by simp only [untagged])
    · exact .inr (by simp only [same])

theorem walkFromRead (fits : ∀ other, (walkFrom .strict m start words).stop ≠ some (.untagged other)) :
    walkFrom .lenient m start words = walkFrom .strict m start words := by
  induction start, words using walkFrom.induct .strict m with
  | case1 start => rw [walkFromNil, walkFromNil]
  | case2 start tagWord rest fault failed =>
    rw [walkFromFault failed] at fits ⊢
    rcases sizeRead m start tagWord rest with untagged | same
    · cases failed.symm.trans untagged
      exact absurd rfl (fits start)
    · exact walkFromFault (same.trans failed)
  | case3 start tagWord rest size sized _ ih =>
    rw [walkFromStep sized] at fits ⊢
    rcases sizeRead m start tagWord rest with untagged | same
    · cases sized.symm.trans untagged
    · rw [walkFromStep (same.trans sized), ih fits]

theorem beyondRead (m : ObjectModel α ω) {top : Word}
    (inside : pointersAt .strict m h top.toNat ≠ .error (.beyond top.toNat)) :
    ¬ nowhere .lenient h top := by
  intro far
  have here : h.imageAt top.toNat = [] := List.drop_eq_nil_of_le (of_decide_eq_true far)
  exact inside (by simp only [pointersAt, here])

theorem markFromRead (small : h.size ≤ null.toNat)
    (fits : ∀ start, (markFrom .strict m h marked stack).stop ≠ some (.untagged start))
    (inside : ∀ start, (markFrom .strict m h marked stack).stop ≠ some (.beyond start)) :
    markFrom .lenient m h marked stack = markFrom .strict m h marked stack := by
  induction marked, stack using markFrom.induct .strict m h with
  | case1 marked => rw [markFromNil, markFromNil]
  | case2 marked top stack skipped ih =>
    rw [markFromSkip skipped] at fits inside ⊢
    have passed : nowhere .lenient h top ∨ top.toNat ∈ marked := by
      refine skipped.imp_left fun none => ?_
      rw [eq_of_beq none]
      exact decide_eq_true small
    rw [markFromSkip passed, ih fits inside]
  | case3 marked top stack fresh fault failed =>
    rw [markFromFault fresh failed] at fits inside ⊢
    have near : ¬ nowhere .lenient h top := by
      refine beyondRead m fun beyond => ?_
      cases failed.symm.trans beyond
      exact inside _ rfl
    have unseen := (not_or.mp fresh).2
    rcases pointersRead m h top.toNat with untagged | same
    · cases failed.symm.trans untagged
      exact absurd rfl (fits _)
    · exact markFromFault (not_or.mpr ⟨near, unseen⟩) (same.trans failed)
  | case4 marked top stack fresh pointers read ih =>
    rw [markFromStep fresh read] at fits inside ⊢
    have near : ¬ nowhere .lenient h top := by
      refine beyondRead m fun beyond => ?_
      cases read.symm.trans beyond
    have unseen := (not_or.mp fresh).2
    rcases pointersRead m h top.toNat with untagged | same
    · cases read.symm.trans untagged
    · rw [markFromStep (not_or.mpr ⟨near, unseen⟩) (same.trans read), ih fits inside]

theorem walkRead (fits : ∀ start, (walk .strict m h).stop ≠ some (.untagged start)) :
    walk .lenient m h = walk .strict m h := walkFromRead fits

theorem markRead {roots : List Word} (small : h.size ≤ null.toNat)
    (fits : ∀ start, (mark .strict m h roots).stop ≠ some (.untagged start))
    (inside : ∀ start, (mark .strict m h roots).stop ≠ some (.beyond start)) :
    mark .lenient m h roots = mark .strict m h roots := markFromRead small fits inside

end WordHeap

end TaggedHeap
