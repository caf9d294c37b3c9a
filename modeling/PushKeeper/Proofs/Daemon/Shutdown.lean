import PushKeeper.Proofs.Daemon.Told
import PushKeeper.Proofs.Receiver.Parts

namespace PushKeeper.Daemon.Session

open Feed (changes)
open Registration (Snapshot)
open Store (KeyValueStore)

variable {σ : Type} {s : Session σ}

section

theorem printed_conclude_of_lags (h : s.receiver.bus.Lags s.position) :
    s.conclude.printed = s.printed ++ [.stopped s.receiver.worker.dropped.toNat] := by
  simp [conclude, remaining_of_lags h]

theorem printed_conclude_of_not_lags (h : ¬ s.receiver.bus.Lags s.position)
    (hp : s.position ≤ s.receiver.published.length) :
    s.conclude.printed =
      s.printed ++ (s.receiver.bus.kept s.position).map .registrationChanged ++
        [.stopped s.receiver.worker.dropped.toNat] := by
  simp [conclude, remaining_of_not_lags h, Broadcast.Bus.kept_of_not_lags _ h hp]

theorem lags_iff (hp : s.position ≤ s.receiver.published.length) :
    s.receiver.bus.Lags s.position ↔ 64 < (s.receiver.bus.unread s.position).length := by
  rw [← capacity_bus s.receiver]
  exact s.receiver.bus.lags_iff hp

theorem printed_conclude_iff (hp : s.position ≤ s.receiver.published.length) :
    s.conclude.printed =
        s.printed ++ (s.receiver.bus.kept s.position).map .registrationChanged ++
          [.stopped s.receiver.worker.dropped.toNat] ↔
      (s.receiver.bus.unread s.position).length ≤ 64 := by
  constructor
  · intro h
    by_contra hlen
    have hl : s.receiver.bus.Lags s.position := (lags_iff hp).2 (by omega)
    rw [printed_conclude_of_lags hl, List.append_assoc] at h
    have hkept : (s.receiver.bus.kept s.position).length = 0 := by
      simpa using congrArg List.length h
    rw [s.receiver.bus.length_kept, capacity_bus] at hkept
    omega
  · intro hlen
    have hl : ¬ s.receiver.bus.Lags s.position := by
      rw [lags_iff hp]
      omega
    exact printed_conclude_of_not_lags hl hp

theorem getLast?_conclude (h : Told s) (hlen : (s.receiver.bus.unread s.position).length ≤ 64) :
    (changes s.conclude.printed).getLast? = s.receiver.published.getLast? := by
  have hl : ¬ s.receiver.bus.Lags s.position := by
    rw [lags_iff h.follows.position_le]
    omega
  refine h.conclude.follows.getLast?_eq ?_
  have := h.follows.position_le
  simp only [conclude, remaining_of_not_lags hl, tell_position, Broadcast.Bus.unread,
    List.length_map, List.length_drop]
  show _ = s.receiver.published.length
  have hsent : s.receiver.bus.sent = s.receiver.published := rfl
  rw [hsent]
  omega

end

def takenBack : List UInt8 := "[\"unregistered\"]".toUTF8.data.toList

theorem ofBytes_takenBack : Line.ofBytes takenBack = .request (.unregistered "default") := by
  decide +kernel

theorem nextLine?_takenBack (rest : List UInt8) :
    nextLine? (takenBack ++ 10 :: rest) = some (takenBack, rest) :=
  nextLine?_append (by decide +kernel) rest

def burst (n : Nat) : List UInt8 := (List.replicate n (takenBack ++ [10])).flatten

/-- Each line is read and acted on, and the host is not told in between. -/
def rush (n : Nat) : List (Happening Store.Entries) :=
  (List.replicate n [.move .read, .move .input]).flatten

theorem burst_succ (n : Nat) : burst (n + 1) = takenBack ++ 10 :: burst n := by
  simp [burst, List.replicate_succ]

theorem rush_succ (n : Nat) : rush (n + 1) = .move .read :: .move .input :: rush n := by
  simp [rush, List.replicate_succ]

theorem after_rush {s : Session Store.Entries} (n : Nat) (hs : s.stage = .serving)
    (hq : s.queue = []) (hu : s.unread = some (burst n)) :
    ∃ r : Receiver Store.Entries,
      s.after (rush n) = { s with receiver := r, unread := some [] } ∧
      r.worker = s.receiver.worker ∧ r.published.length = s.receiver.published.length + n := by
  induction n generalizing s with
  | zero =>
    have hu : s.unread = some [] := hu
    refine ⟨s.receiver, ?_, rfl, rfl⟩
    rw [← hu]
    rfl
  | succ n ih =>
    let r := s.receiver.withoutEndpoint.publish
    let s' : Session Store.Entries := { s with receiver := r, unread := some (burst n) }
    rw [burst_succ] at hu
    have hread : happen (.move .read) s =
        { s with unread := some (burst n), queue := [.unregistered "default"] } := by
      refine happen_of_step? ?_
      have hline := readLine_of_line s _ (nextLine?_takenBack (burst n))
      rw [ofBytes_takenBack] at hline
      simp [step?, hs, hq, hu, hline, takeIn]
    have hinput : happen (.move .input)
        { s with unread := some (burst n), queue := [.unregistered "default"] } = s' := by
      refine happen_of_step? ?_
      have halerts (before : List Receiver.Notice) (snapshot : Registration.Snapshot) :
          Receiver.alertsSince before (before ++ [.published snapshot]) = [] := by
        simp [Receiver.alertsSince, Receiver.alertEvents]
      simp [step?, hs, hq, act, Receiver.apply, Feed.Request.toTransportEvent?, Receiver.handle,
        Receiver.on_unregistered, onReceiver, halerts, s', r]
    obtain ⟨r', hafter, hw, hlen⟩ := ih (s := s') hs hq rfl
    refine ⟨r', ?_, ?_, ?_⟩
    · rw [rush_succ, after_cons, after_cons, hread, hinput]
      exact hafter
    · simpa [s', r] using hw
    · simp [s', r] at hlen
      omega

theorem untold_of_burst {n : Nat} (hn : 64 < n) :
    let r : Receiver Store.Entries := .new Receiver.workerName .empty 0 default (.fixed true)
    let s := (start r ⟨none, .unconfigured⟩ (burst n)).after (rush n ++ [.move .read, .move .input])
    s.receiver.worker.idle ∧ (s.receiver.bus.kept s.position).length = 64 ∧
      (s.after [.move .finish]).stage = .stopped ∧
      (s.after [.move .finish]).printed = [.ready ⟨none, .unconfigured⟩, .stopped 0] := by
  intro r s
  obtain ⟨r', hafter, hw, hlen⟩ :=
    after_rush (s := start r ⟨none, .unconfigured⟩ (burst n)) n rfl rfl rfl
  have hw : r'.worker = .new Receiver.workerName := hw
  have hs : s = ⟨r', 0, none, [], .closing, [.ready ⟨none, .unconfigured⟩]⟩ := by
    rw [show s = _ from after_append _ _ _, hafter]
    rfl
  have hunread : (r'.bus.unread 0).length = n := by
    rw [← Nat.zero_add n]
    exact hlen
  have hfinish : s.after [.move .finish] = s.conclude := by
    refine happen_of_step? ?_
    simp [step?, hs, hw, Worker.new]
  have hlags : s.receiver.bus.Lags s.position := by
    rw [hs]
    refine (lags_iff (Nat.zero_le _)).2 ?_
    rwa [hunread]
  rw [hfinish, printed_conclude_of_lags hlags, hs]
  refine ⟨?_, ?_, rfl, ?_⟩
  · rw [hw]
    rfl
  · rw [Broadcast.Bus.length_kept, hunread, capacity_bus]
    omega
  · rw [hw]
    rfl

variable [KeyValueStore σ]

/-- A session that has stopped did so when nothing was left for the worker. What was published and not
read by then is told if it is not more than the bus keeps, and then the host was last told what was
last published. If it is more, not even what the bus keeps is told. -/
theorem told_at_stop_iff (name : String) (store : σ) (clock : UInt64) (policy : Fetch.Policy)
    (delivery : Fetch.Delivery) (snapshot : Snapshot) (input : List UInt8)
    (course : List (Happening σ)) :
    let s₀ := start (.new name store clock policy delivery) snapshot input
    let printed := (s₀.after course).printed
    (s₀.after course).stage = .stopped →
    ∃ before rest, course = before ++ .move .finish :: rest ∧
      let s := s₀.after before
      let unread := s.receiver.bus.unread s.position
      let stopped := Feed.Event.stopped s.receiver.worker.dropped.toNat
      s.receiver.worker.idle ∧
        (printed =
            s.printed ++ (s.receiver.bus.kept s.position).map .registrationChanged ++ [stopped] ↔
          unread.length ≤ 64) ∧
        (unread.length ≤ 64 → (changes printed).getLast? = s.receiver.published.getLast?) ∧
        (64 < unread.length → printed = s.printed ++ [stopped]) := by
  intro s₀ printed h
  obtain ⟨before, rest, store', clock', hcourse, -, hidle, hend⟩ :=
    exists_finish (s := s₀) (by simp [s₀, start]) h
  refine ⟨before, rest, hcourse, ?_⟩
  intro s unread stopped
  have hprinted : printed = s.conclude.printed :=
    (congrArg Session.printed hend :)
  have htold : Told s :=
    (told_start (Receiver.steady_new name store clock policy delivery) rfl snapshot input).after before
  refine ⟨hidle, ?_, ?_, ?_⟩
  · rw [hprinted]
    exact printed_conclude_iff htold.follows.position_le
  · intro hlen
    rw [hprinted]
    exact getLast?_conclude htold hlen
  · intro hlen
    rw [hprinted]
    exact printed_conclude_of_lags ((lags_iff htold.follows.position_le).2 hlen)

/-- The endpoint is taken back once, and the input ends. -/
theorem told_of_one :
    let s₀ : Session Store.Entries :=
      start (.new Receiver.workerName .empty 0 default (.fixed true)) ⟨none, .unconfigured⟩ (burst 1)
    let course := rush 1 ++ [.move .read, .move .input, .move .finish]
    let printed := (s₀.after course).printed
    (s₀.after course).stage = .stopped ∧
      printed = [.ready ⟨none, .unconfigured⟩, .registrationChanged ⟨none, .unconfigured⟩, .stopped 0] ∧
      ∃ before rest, course = before ++ .move .finish :: rest ∧
        let s := s₀.after before
        s.receiver.worker.idle ∧
          (printed = s.printed ++ (s.receiver.bus.kept s.position).map .registrationChanged ++
              [.stopped s.receiver.worker.dropped.toNat] ↔
            (s.receiver.bus.unread s.position).length ≤ 64) := by
  intro s₀ course printed
  have hstage : (s₀.after course).stage = .stopped := by decide +kernel
  have hprinted : printed = [.ready ⟨none, .unconfigured⟩,
      .registrationChanged ⟨none, .unconfigured⟩, .stopped 0] := by
    decide +kernel
  dsimp only [printed, s₀] at hstage hprinted ⊢
  obtain ⟨before, rest, hcourse, hidle, hiff, -⟩ :=
    told_at_stop_iff Receiver.workerName Store.Entries.empty 0 default (.fixed true)
      ⟨none, .unconfigured⟩ (burst 1) course hstage
  exact ⟨hstage, hprinted, before, rest, hcourse, hidle, hiff⟩

theorem nothing_told_of_burst :
    let r : Receiver Store.Entries := .new Receiver.workerName .empty 0 default (.fixed true)
    let s := (start r ⟨none, .unconfigured⟩ (burst 65)).after
      (rush 65 ++ [.move .read, .move .input])
    s.receiver.worker.idle ∧ (s.receiver.bus.kept s.position).length = 64 ∧
      (s.after [.move .finish]).stage = .stopped ∧
      (s.after [.move .finish]).printed = [.ready ⟨none, .unconfigured⟩, .stopped 0] :=
  untold_of_burst (by decide)

end PushKeeper.Daemon.Session
