import PushKeeper.Proofs.Daemon.Run

namespace PushKeeper

open Registration (Snapshot)
open Store (KeyValueStore)

namespace Feed

@[simp] def Event.change? : Event → Option Snapshot
  | registrationChanged s => some s
  | _ => none

def changes (events : List Event) : List Snapshot := events.filterMap Event.change?

@[simp] theorem changes_nil : changes [] = [] := rfl

@[simp] theorem changes_cons (e : Event) (events : List Event) :
    changes (e :: events) = e.change?.toList ++ changes events := by
  cases e <;> rfl

@[simp] theorem changes_append (as bs : List Event) :
    changes (as ++ bs) = changes as ++ changes bs := by
  simp [changes]

@[simp] theorem changes_map (snapshots : List Snapshot) :
    changes (snapshots.map .registrationChanged) = snapshots := by
  simp [changes, List.filterMap_map, Function.comp_def]

theorem changes_eq_nil {events : List Event} (h : ∀ e ∈ events, e.change? = none) :
    changes events = [] := by
  simpa [changes] using h

@[simp] theorem changes_alertsSince (before after : List Receiver.Notice) :
    changes (Receiver.alertsSince before after) = [] := by
  refine changes_eq_nil fun e he => ?_
  obtain ⟨kind, rfl⟩ := Receiver.exists_alert_of_mem he
  rfl

end Feed

namespace Daemon.Session

open Feed (changes changes_eq_nil)

variable {σ : Type} {s s' : Session σ}

theorem capacity_bus (r : Receiver σ) : r.bus.capacity = 64 := by
  show Broadcast.Bus.roundCapacity 64 = 64
  simp [Broadcast.Bus.roundCapacity]

section

variable {bus : Broadcast.Bus Snapshot} {position : Nat}

theorem remaining_of_lags (h : bus.Lags position) : remaining bus position = [] := by
  rw [remaining, bus.drain_of_lags h]
  rfl

theorem remaining_of_not_lags (h : ¬ bus.Lags position) :
    remaining bus position = bus.unread position := by
  have hlast : remaining.isEvent bus.last = false := by
    unfold Broadcast.Bus.last
    split <;> rfl
  have hall : ∀ e ∈ (bus.unread position).map Broadcast.Received.event, remaining.isEvent e := by
    simp [remaining.isEvent]
  rw [remaining, bus.drain_of_not_lags h, List.takeWhile_append_of_pos hall]
  simp [hlast, List.filterMap_map, Function.comp_def, remaining.snapshot?]

end

/-- Someone who hears of what is published is at some position, with gaps behind it. -/
structure Follows {ε : Type} (heard published : List ε) (position : Nat) : Prop where
  position_le : position ≤ published.length
  sublist : heard.Sublist (published.take position)
  getLast?_eq : position = published.length → heard.getLast? = published.getLast?

namespace Follows

variable {ε : Type} {heard published : List ε} {position : Nat}

theorem nil : Follows ([] : List ε) [] 0 := ⟨Nat.le_refl 0, .slnil, fun _ => rfl⟩

theorem grow (h : Follows heard published position) {published' : List ε}
    (hp : published <+: published') : Follows heard published' position := by
  obtain ⟨more, rfl⟩ := hp
  obtain ⟨hle, hsub, hlast⟩ := h
  refine ⟨?_, ?_, ?_⟩
  · rw [List.length_append]
    exact Nat.le_add_right_of_le hle
  · rwa [List.take_append_of_le_length hle]
  · intro he
    rw [List.length_append] at he
    obtain rfl : more = [] := List.eq_nil_of_length_eq_zero (by omega)
    rw [List.append_nil]
    exact hlast (by omega)

theorem hear (h : Follows heard published position) {e : ε} (he : published[position]? = some e) :
    Follows (heard ++ [e]) published (position + 1) := by
  refine ⟨(List.getElem?_eq_some_iff.1 he).1, ?_, ?_⟩
  · rw [List.take_add_one, he]
    exact h.sublist.append_right [e]
  · intro hlen
    rw [List.getLast?_concat, List.getLast?_eq_getElem?, ← hlen]
    exact he.symm

theorem skip (h : Follows heard published position) {position' : Nat} (hle : position ≤ position')
    (hlt : position' < published.length) : Follows heard published position' := by
  refine ⟨Nat.le_of_lt hlt, ?_, fun he => absurd he (Nat.ne_of_lt hlt)⟩
  exact h.sublist.trans (List.take_prefix_take_left hle).sublist

theorem finish (h : Follows heard published position) :
    Follows (heard ++ published.drop position) published published.length := by
  refine ⟨Nat.le_refl _, ?_, fun _ => ?_⟩
  · rw [List.take_length]
    have hsub := h.sublist.append_right (published.drop position)
    rwa [List.take_append_drop] at hsub
  · obtain hlt | heq := Nat.lt_or_eq_of_le h.position_le
    · rw [List.getLast?_append_of_ne_nil _ (by simpa using hlt), List.getLast?_drop,
        if_neg (Nat.not_le.2 hlt)]
    · rw [heq, List.drop_length, List.append_nil]
      exact h.getLast?_eq heq

end Follows

structure Told (s : Session σ) : Prop where
  steady : Receiver.Steady s.receiver
  follows : Follows (changes s.printed) s.receiver.published s.position

namespace Told

theorem tell (h : Told s) {events : List Feed.Event} (he : ∀ e ∈ events, e.change? = none) :
    Told (s.tell events) := by
  refine ⟨h.steady, ?_⟩
  simpa [changes_eq_nil he] using h.follows

variable [KeyValueStore σ] {r : Receiver σ} {store : σ} {clock : UInt64}

omit [KeyValueStore σ] in
theorem beside (h : Told s) : Told (s.beside store clock) :=
  ⟨⟨h.steady.sound, h.steady.closed_eq, h.steady.current_of_inFlight⟩, h.follows⟩

theorem onReceiver (h : Told s) (a : Receiver.Act) :
    Told (s.onReceiver (Receiver.act a s.receiver)) := by
  refine ⟨h.steady.act a, ?_⟩
  simpa using h.follows.grow (Receiver.published_grows (Receiver.history_grows h.steady a))

omit [KeyValueStore σ] in
theorem conclude (h : Told s) : Told s.conclude := by
  refine ⟨h.steady, ?_⟩
  by_cases hlag : s.receiver.bus.Lags s.position
  · have hrest : remaining s.receiver.bus s.position = [] := remaining_of_lags hlag
    simpa [Session.conclude, hrest] using h.follows
  · have hrest : remaining s.receiver.bus s.position = s.receiver.published.drop s.position :=
      remaining_of_not_lags hlag
    have hpos : s.position + (s.receiver.published.drop s.position).length =
        s.receiver.published.length := by
      have := h.follows.position_le
      rw [List.length_drop]
      omega
    have hchanges : changes s.conclude.printed =
        changes s.printed ++ s.receiver.published.drop s.position := by
      simp [Session.conclude, hrest, -List.map_drop]
    have hfin := h.follows.finish
    rw [← hchanges, ← hpos] at hfin
    simpa [Session.conclude, hrest] using hfin

theorem step {happening : Happening σ} {acts : List Receiver.Act} (h : Told s)
    (hstep : Step s happening acts s') : Told s' := by
  cases hstep with
  | outside => exact h.beside
  | refused => exact h
  | @read bytes =>
    obtain ⟨unread, queue, events, he, hbad⟩ := readLine_eq s bytes
    rw [he]
    refine tell (s := { s with unread, queue }) ⟨h.steady, h.follows⟩ fun e hmem => ?_
    obtain ⟨cause, rfl⟩ := hbad e hmem
    rfl
  | quit => exact ⟨h.steady, h.follows⟩
  | @applied request queue a events hs hq ha hfail =>
    refine tell (onReceiver (s := { s with queue }) ⟨h.steady, h.follows⟩ a) fun e hmem => ?_
    obtain ⟨cause, rfl⟩ := hfail e hmem
    rfl
  | heard hs hl hx =>
    refine ⟨h.steady, ?_⟩
    simpa using h.follows.hear hx
  | missed hs hl =>
    have hcap := capacity_bus s.receiver
    have hl : s.position < s.receiver.published.length - s.receiver.bus.capacity := hl
    refine ⟨h.steady, h.follows.skip (Nat.le_of_lt hl) ?_⟩
    show s.receiver.published.length - s.receiver.bus.capacity < _
    omega
  | worked => exact h.onReceiver .work
  | @answered reply => exact h.onReceiver (.answer reply)
  | finished => exact h.conclude

theorem after (h : Told s) (course : List (Happening σ)) : Told (s.after course) :=
  Run.after_keeps h fun happening _ s hs => hs.step (step_happen s happening)

end Told

theorem told_start {r : Receiver σ} [KeyValueStore σ] (hr : Receiver.Steady r) (hh : r.history = [])
    (snapshot : Snapshot) (input : List UInt8) : Told (start r snapshot input) := by
  have hp : r.published = [] := by simp [Receiver.published, hh]
  refine ⟨hr, ?_⟩
  simpa [start, Broadcast.Bus.subscribe, Receiver.bus, hp]
    using Follows.nil

end Daemon.Session

end PushKeeper
