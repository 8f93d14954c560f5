/-! Reading facts off computations that may fail: what each part of one gave when the whole gave a
result, and what a fold over such steps keeps. -/
namespace TaggedHeap

variable {ε δ α β : Type}

theorem bindOk {first : Except ε α} {next : α → Except ε β} {b} :
    (first >>= next) = .ok b ↔ ∃ a, first = .ok a ∧ next a = .ok b := by
  cases first with
  | error fault => exact ⟨fun h => (by cases h), fun ⟨_, h, _⟩ => (by cases h)⟩
  | ok a => exact ⟨fun h => ⟨a, rfl, h⟩, fun ⟨_, h, last⟩ => (by cases h; exact last)⟩

theorem bindFirst {first : Except ε α} {next : α → Except ε β} {a} (ok : first = .ok a) :
    (first >>= next) = next a := by
  rw [ok]
  rfl

theorem bindError {first : Except ε α} {next : α → Except ε β} {fault} :
    (first >>= next) = .error fault ↔
      first = .error fault ∨ ∃ a, first = .ok a ∧ next a = .error fault := by
  cases first with
  | error other =>
    exact ⟨fun h => .inl (by cases h; rfl), fun h => by
      rcases h with h | ⟨_, h, _⟩ <;> cases h; rfl⟩
  | ok a =>
    exact ⟨fun h => .inr ⟨a, rfl, h⟩, fun h => by
      rcases h with h | ⟨_, h, last⟩ <;> cases h; exact last⟩

theorem mapErrorOk {first : Except ε α} {name : ε → δ} {a} :
    first.mapError name = .ok a ↔ first = .ok a := by
  cases first with
  | error fault => exact ⟨fun h => (by cases h), fun h => (by cases h)⟩
  | ok a => exact ⟨fun h => (by cases h; rfl), fun h => (by cases h; rfl)⟩

theorem mapErrorFault {first : Except ε α} {name : ε → δ} {fault} :
    first.mapError name = .error fault ↔ ∃ inner, first = .error inner ∧ fault = name inner := by
  cases first with
  | error inner =>
    exact ⟨fun h => ⟨inner, rfl, (by cases h; rfl)⟩, fun ⟨_, h, same⟩ => by
      cases h; cases same; rfl⟩
  | ok a => exact ⟨fun h => (by cases h), fun ⟨_, h, _⟩ => (by cases h)⟩

theorem isOkIff {first : Except ε α} : first.isOk = true ↔ ∃ a, first = .ok a := by
  cases first with
  | error fault => exact ⟨fun h => (by cases h), fun ⟨_, h⟩ => (by cases h)⟩
  | ok a => exact ⟨fun _ => ⟨a, rfl⟩, fun _ => rfl⟩

theorem foldKeeps (keeps : β → Prop) {step : β → α → Except ε β}
    (each : ∀ {b a next}, keeps b → step b a = .ok next → keeps next) {items : List α} {b last : β}
    (start : keeps b) (ok : items.foldlM step b = .ok last) : keeps last := by
  induction items generalizing b with
  | nil => cases ok; exact start
  | cons a rest ih =>
    rw [List.foldlM_cons] at ok
    obtain ⟨next, first, later⟩ := bindOk.mp ok
    exact ih (each start first) later

end TaggedHeap
