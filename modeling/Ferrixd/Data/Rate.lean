import Mathlib.Data.List.Basic

/-! # Rates

At most so many events in every span of time, wherever the span begins. -/

namespace Ferrixd.Rate

/-- The events of a log in the span that begins at a time. -/
def inSpan (span begin : Nat) (log : List Nat) : Nat :=
  log.countP fun time => begin ≤ time ∧ time < begin + span

/-- The events of a log that are less than a span old. -/
def recent (span now : Nat) (log : List Nat) : Nat :=
  log.countP fun time => now < time + span

/-- No span holds more events than the limit. -/
def Within (span limit : Nat) (log : List Nat) : Prop :=
  ∀ begin, inSpan span begin log ≤ limit

variable {span limit now : Nat} {log : List Nat}

@[simp] theorem recent_append (log more : List Nat) :
    recent span now (log ++ more) = recent span now log + recent span now more :=
  List.countP_append

theorem recent_eq_zero (old : ∀ time ∈ log, time + span ≤ now) : recent span now log = 0 := by
  rw [recent, List.countP_eq_zero]
  intro time member
  have := old time member
  simp only [decide_eq_true_eq]
  omega

theorem recent_eq_length (new : ∀ time ∈ log, now < time + span) : recent span now log = log.length := by
  rw [recent, List.countP_eq_length]
  intro time member
  exact decide_eq_true (new time member)

theorem Within.nil : Within span limit [] :=
  fun _ => Nat.zero_le limit

/-- One more event keeps the limit exactly if there were fewer in the span before it. -/
theorem Within.concat_iff (within : Within span limit log) (past : ∀ time ∈ log, time ≤ now) (positive : 0 < span) :
    Within span limit (log ++ [now]) ↔ recent span now log < limit := by
  have added (begin : Nat) : inSpan span begin (log ++ [now]) =
      inSpan span begin log + if begin ≤ now ∧ now < begin + span then 1 else 0 := by
    rw [inSpan, List.countP_append, List.countP_singleton, inSpan]
    simp
  constructor
  · intro kept
    -- the span that ends now is the one that counts the recent times
    have last := kept (now + 1 - span)
    rw [added, if_pos (by omega)] at last
    refine Nat.lt_of_lt_of_le (Nat.lt_succ_of_le ?_) last
    apply List.countP_mono_left
    intro time member young
    have := past time member
    simp only [decide_eq_true_eq] at young ⊢
    omega
  · intro room begin
    rw [added]
    split
    · rename_i covered
      -- every span that covers now covers recent times only
      refine Nat.le_trans (Nat.succ_le_succ ?_) room
      apply List.countP_mono_left
      intro time member inside
      simp only [decide_eq_true_eq] at inside ⊢
      omega
    · exact within begin

end Ferrixd.Rate
