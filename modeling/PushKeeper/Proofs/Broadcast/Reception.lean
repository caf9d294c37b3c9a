import PushKeeper.Broadcast.Bus

namespace PushKeeper.Broadcast.Bus

variable {ε : Type} (b : Bus ε) {position : Nat}

def Lags (position : Nat) : Prop := position < b.oldest

instance (position : Nat) : Decidable (b.Lags position) :=
  inferInstanceAs (Decidable (position < b.oldest))

def unread (position : Nat) : List ε := b.sent.drop position

def kept (position : Nat) : List ε :=
  (b.unread position).drop ((b.unread position).length - b.capacity)

def last : Received ε := if b.closed then .closed else .empty

theorem isLast_last : b.last.isLast := by
  unfold last
  split <;> rfl

theorem lags_iff (h : position ≤ b.sent.length) :
    b.Lags position ↔ b.capacity < (b.unread position).length := by
  simp only [Lags, oldest, unread, List.length_drop]
  omega

theorem kept_of_lags (h : b.Lags position) : b.kept position = b.unread b.oldest := by
  simp only [Lags, oldest] at h
  simp only [kept, unread, oldest, List.drop_drop, List.length_drop]
  congr 1
  omega

theorem kept_of_not_lags (h : ¬ b.Lags position) (hp : position ≤ b.sent.length) :
    b.kept position = b.unread position := by
  rw [b.lags_iff hp] at h
  rw [kept, Nat.sub_eq_zero_of_le (Nat.not_lt.1 h), List.drop_zero]

theorem length_kept (position : Nat) :
    (b.kept position).length = min (b.unread position).length b.capacity := by
  rw [kept, List.length_drop]
  omega

theorem receive_of_lags (h : b.Lags position) :
    b.receive position = (.lagged (b.oldest - position), b.oldest) :=
  if_pos h

theorem receive_of_unread (h : ¬ b.Lags position) {e : ε} (he : b.sent[position]? = some e) :
    b.receive position = (.event e, position + 1) := by
  simp only [Lags] at h
  simp [receive, h, he]

theorem receive_of_read (h : ¬ b.Lags position) (he : b.sent.length ≤ position) :
    b.receive position = (b.last, position) := by
  simp only [Lags] at h
  simp [receive, h, List.getElem?_eq_none he, last]

theorem not_lags_oldest : ¬ b.Lags b.oldest := Nat.lt_irrefl _

theorem not_lags_succ (h : ¬ b.Lags position) : ¬ b.Lags (position + 1) := by
  simp only [Lags] at h ⊢
  omega

theorem drainWith_of_not_lags (h : ¬ b.Lags position) {fuel : Nat}
    (hf : (b.unread position).length < fuel) :
    (b.drainWith position fuel).1 = (b.unread position).map .event ++ [b.last] := by
  induction fuel generalizing position with
  | zero => simp at hf
  | succ fuel ih =>
    cases he : b.sent[position]? with
    | none =>
      have hlen : b.sent.length ≤ position := List.getElem?_eq_none_iff.1 he
      have hu : b.unread position = [] := List.drop_eq_nil_of_le hlen
      simp [drainWith, b.receive_of_read h hlen, isLast_last, hu]
    | some e =>
      obtain ⟨hlt, he'⟩ := List.getElem?_eq_some_iff.1 he
      have hu : b.unread position = e :: b.unread (position + 1) := by
        rw [unread, List.drop_eq_getElem_cons hlt, he']
        rfl
      rw [hu, List.length_cons] at hf
      simp [drainWith, b.receive_of_unread h he, Received.isLast, hu, ih (b.not_lags_succ h) (by omega)]

theorem drain_of_not_lags (h : ¬ b.Lags position) :
    (b.drain position).1 = (b.unread position).map .event ++ [b.last] := by
  refine b.drainWith_of_not_lags h ?_
  simp only [unread, List.length_drop]
  omega

theorem drain_of_lags (h : b.Lags position) :
    (b.drain position).1 =
      .lagged (b.oldest - position) :: (b.kept position).map .event ++ [b.last] := by
  have hf : (b.unread b.oldest).length < b.sent.length + 1 := by
    simp only [unread, List.length_drop]
    omega
  rw [drain, drainWith, b.receive_of_lags h, b.kept_of_lags h, List.cons_append,
    ← b.drainWith_of_not_lags b.not_lags_oldest hf]
  rfl

end PushKeeper.Broadcast.Bus
