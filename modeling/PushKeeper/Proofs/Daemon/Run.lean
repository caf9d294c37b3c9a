import PushKeeper.Proofs.Broadcast.Reception
import PushKeeper.Proofs.Daemon.Lines
import PushKeeper.Proofs.Receiver.Conduct

namespace PushKeeper

open Registration (Snapshot)
open Store (KeyValueStore)

def Receiver.Act.ofRequest? : Feed.Request → Option Receiver.Act
  | .retry => some .retry
  | .airGapped enabled => some (.airGapped enabled)
  | request => request.toTransportEvent?.map .handle

namespace Receiver

variable {σ : Type} [KeyValueStore σ] {request : Feed.Request} {a : Act}

theorem Act.isRequest_of_ofRequest? (h : Act.ofRequest? request = some a) : a.isRequest := by
  cases request <;> simp [ofRequest?, Feed.Request.toTransportEvent?] at h <;> subst h <;> rfl

theorem Act.exists_ofRequest? (h : request ≠ .quit) : ∃ a, Act.ofRequest? request = some a := by
  cases request with
  | quit => exact absurd rfl h
  | _ => exact ⟨_, rfl⟩

theorem apply_cases (h : Act.ofRequest? request = some a) (r : Receiver σ) :
    (r.apply request).2 = act a r ∧
      ∀ e ∈ (r.apply request).1, ∃ cause, e = switchFailed cause := by
  cases request with
  | airGapped enabled =>
    obtain rfl : Act.airGapped enabled = a := Option.some.inj h
    simp only [apply, act]
    generalize (setAirGapped enabled).on r = result
    obtain ⟨cause | _, r'⟩ := result
    · exact ⟨rfl, by simp⟩
    · exact ⟨rfl, by simp⟩
  | quit => simp [Act.ofRequest?, Feed.Request.toTransportEvent?] at h
  | _ =>
    obtain rfl := Option.some.inj h
    exact ⟨rfl, by simp [apply, Feed.Request.toTransportEvent?]⟩

omit [KeyValueStore σ] in
theorem exists_alert_of_mem {before after : List Notice} {e : Feed.Event}
    (he : e ∈ alertsSince before after) : ∃ kind, e = .alert kind := by
  obtain ⟨n, -, hn⟩ := List.mem_filterMap.1 he
  cases n with
  | published snapshot => simp at hn
  | alerted kind => exact ⟨kind, (Option.some.inj hn).symm⟩

omit [KeyValueStore σ] in
theorem published_grows {r r' : Receiver σ} (h : r.history <+: r'.history) :
    r.published <+: r'.published :=
  h.filterMap _

end Receiver

namespace Daemon

namespace Session

variable {σ : Type}

def takeIn (line : Line) (rest : List UInt8) (s : Session σ) : Session σ :=
  match line with
  | .request .quit => s.endReading
  | .request r => { s with unread := some rest, queue := s.queue ++ [r] }
  | .blank => { s with unread := some rest }
  | .bad cause => { s with unread := some rest }.tell [badLine cause]
  | .garbled => s.endReading

/-- What can happen in a session. -/
inductive Happening (σ : Type)
  | move (m : Move)
  | outside (store : σ) (clock : UInt64)

def beside (store : σ) (clock : UInt64) (s : Session σ) : Session σ :=
  { s with receiver := { s.receiver with store, clock } }

section

variable (s : Session σ) (events : List Feed.Event) (r : Receiver σ) (bytes : List UInt8)

@[simp] theorem tell_nil : s.tell [] = s := by simp [tell]

@[simp] theorem tell_receiver : (s.tell events).receiver = s.receiver := rfl

@[simp] theorem tell_position : (s.tell events).position = s.position := rfl

@[simp] theorem tell_unread : (s.tell events).unread = s.unread := rfl

@[simp] theorem tell_queue : (s.tell events).queue = s.queue := rfl

@[simp] theorem tell_stage : (s.tell events).stage = s.stage := rfl

@[simp] theorem tell_printed : (s.tell events).printed = s.printed ++ events := rfl

@[simp] theorem onReceiver_receiver : (s.onReceiver r).receiver = r := rfl

@[simp] theorem onReceiver_position : (s.onReceiver r).position = s.position := rfl

@[simp] theorem onReceiver_unread : (s.onReceiver r).unread = s.unread := rfl

@[simp] theorem onReceiver_queue : (s.onReceiver r).queue = s.queue := rfl

@[simp] theorem onReceiver_stage : (s.onReceiver r).stage = s.stage := rfl

@[simp] theorem onReceiver_printed :
    (s.onReceiver r).printed =
      s.printed ++ Receiver.alertsSince s.receiver.history r.history := rfl

theorem readLine_of_end (h : nextLine? bytes = none) : s.readLine bytes = s.endReading := by
  simp [readLine, h]

theorem readLine_of_line {line rest : List UInt8} (h : nextLine? bytes = some (line, rest)) :
    s.readLine bytes = s.takeIn (.ofBytes line) rest := by
  simp only [readLine, h, Line.ofBytes]
  cases String.fromUTF8? ⟨line.toArray⟩ with
  | none => rfl
  | some text =>
    simp only
    rcases Feed.Request.ofLine text with cause | _ | request
    · rfl
    · rfl
    · cases request <;> rfl

theorem readLine_eq : ∃ unread queue events,
    s.readLine bytes = { s with unread, queue }.tell events ∧
      ∀ e ∈ events, ∃ cause, e = badLine cause := by
  have hend : ∃ queue : List Feed.Request, s.endReading = { s with unread := none, queue }.tell [] :=
    ⟨_, (tell_nil _).symm⟩
  obtain ⟨queue, hend⟩ := hend
  cases h : nextLine? bytes with
  | none => exact ⟨none, queue, [], by rw [readLine_of_end s bytes h, hend], by simp⟩
  | some p =>
    obtain ⟨line, rest⟩ := p
    rw [readLine_of_line s bytes h]
    cases Line.ofBytes line with
    | garbled => exact ⟨none, queue, [], hend, by simp⟩
    | blank => exact ⟨some rest, s.queue, [], (tell_nil _).symm, by simp⟩
    | bad cause => exact ⟨some rest, s.queue, [badLine cause], rfl, by simp⟩
    | request r =>
      cases r with
      | quit => exact ⟨none, queue, [], hend, by simp⟩
      | _ => exact ⟨some rest, s.queue ++ [_], [], (tell_nil _).symm, by simp⟩

end

variable [KeyValueStore σ]

/-- A move that cannot come changes nothing. -/
def happen : Happening σ → Session σ → Session σ
  | .move m, s => (s.step? m).getD s
  | .outside store clock, s => s.beside store clock

def after (s : Session σ) (course : List (Happening σ)) : Session σ :=
  Run.after happen s course

@[simp] theorem after_nil (s : Session σ) : s.after [] = s := rfl

@[simp] theorem after_append (s : Session σ) (as bs : List (Happening σ)) :
    s.after (as ++ bs) = (s.after as).after bs := by
  simp [after]

@[simp] theorem after_cons (s : Session σ) (h : Happening σ) (course : List (Happening σ)) :
    s.after (h :: course) = (happen h s).after course := rfl

def toReceiver (h : Happening σ) (s : Session σ) : List Receiver.Act :=
  match h with
  | .outside .. => []
  | .move m =>
    if (s.step? m).isNone then []
    else
      match m with
      | .input => (s.queue.head?.bind Receiver.Act.ofRequest?).toList
      | .work => [.work]
      | .answer reply => [.answer reply]
      | .read => []
      | .event => []
      | .finish => []

/-- Everything that a happening can do, by what it finds, with what it is to the receiver. -/
inductive Step (s : Session σ) : Happening σ → List Receiver.Act → Session σ → Prop
  | outside {store clock} : Step s (.outside store clock) [] (s.beside store clock)
  | refused {m} (h : s.step? m = none) : Step s (.move m) [] s
  | read {bytes} (hs : s.stage ≠ .stopped) (hu : s.unread = some bytes) :
      Step s (.move .read) [] (s.readLine bytes)
  | quit {queue} (hs : s.stage = .serving) (hq : s.queue = .quit :: queue) :
      Step s (.move .input) [] { s with queue, stage := .closing }
  | applied {request queue a events} (hs : s.stage = .serving) (hq : s.queue = request :: queue)
      (ha : Receiver.Act.ofRequest? request = some a)
      (he : ∀ e ∈ events, ∃ cause, e = Receiver.switchFailed cause) :
      Step s (.move .input) [a]
        (({ s with queue }.onReceiver (Receiver.act a s.receiver)).tell events)
  | heard {snapshot} (hs : s.stage = .serving) (hl : ¬ s.receiver.bus.Lags s.position)
      (h : s.receiver.published[s.position]? = some snapshot) :
      Step s (.move .event) []
        ({ s with position := s.position + 1 }.tell [.registrationChanged snapshot])
  | missed (hs : s.stage = .serving) (hl : s.receiver.bus.Lags s.position) :
      Step s (.move .event) [] { s with position := s.receiver.bus.oldest }
  | worked (hs : s.stage ≠ .stopped) :
      Step s (.move .work) [.work] (s.onReceiver (Receiver.act .work s.receiver))
  | answered {reply} (hs : s.stage ≠ .stopped) :
      Step s (.move (.answer reply)) [.answer reply]
        (s.onReceiver (Receiver.act (.answer reply) s.receiver))
  | finished (hs : s.stage = .closing) (hi : s.receiver.worker.idle) :
      Step s (.move .finish) [] s.conclude

section

variable {s s' : Session σ}

theorem happen_of_step? {m : Move} (h : s.step? m = some s') : happen (.move m) s = s' := by
  simp [happen, h]

theorem step_input (h : s.step? .input = some s') :
    Step s (.move .input) (toReceiver (.move .input) s) s' := by
  simp only [toReceiver, h]
  simp only [step?] at h
  split at h
  · rename_i request queue hs hq
    obtain rfl := Option.some.inj h
    simp only [hq, List.head?_cons, Option.bind_some]
    by_cases hreq : request = .quit
    · subst hreq
      exact .quit hs hq
    · obtain ⟨a, ha⟩ := Receiver.Act.exists_ofRequest? hreq
      obtain ⟨hr, he⟩ := Receiver.apply_cases ha s.receiver
      have hact : ({ s with queue } : Session σ).act request =
          (({ s with queue } : Session σ).onReceiver (s.receiver.apply request).2).tell
            (s.receiver.apply request).1 := by
        cases request <;> first | rfl | exact absurd rfl hreq
      rw [hact, hr, ha]
      exact .applied hs hq ha he
  · simp at h

theorem step_event (h : s.step? .event = some s') :
    Step s (.move .event) (toReceiver (.move .event) s) s' := by
  simp only [toReceiver, h]
  simp only [step?] at h
  split at h
  · rename_i hs
    by_cases hl : s.receiver.bus.Lags s.position
    · rw [Broadcast.Bus.receive_of_lags _ hl] at h
      obtain rfl := Option.some.inj h
      exact .missed hs hl
    · cases he : s.receiver.published[s.position]? with
      | none =>
        rw [Broadcast.Bus.receive_of_read _ hl (List.getElem?_eq_none_iff.1 he)] at h
        cases h
      | some snapshot =>
        rw [Broadcast.Bus.receive_of_unread _ hl he] at h
        obtain rfl := Option.some.inj h
        exact .heard hs hl he
  · simp at h

theorem step_move {m : Move} (h : s.step? m = some s') :
    Step s (.move m) (toReceiver (.move m) s) s' := by
  cases m with
  | input => exact step_input h
  | event => exact step_event h
  | read =>
    simp only [toReceiver, h]
    simp only [step?] at h
    split at h
    · simp at h
    · rename_i hs
      simp only [Bool.or_eq_true, decide_eq_true_eq, not_or] at hs
      obtain ⟨bytes, hu, rfl⟩ := Option.map_eq_some_iff.1 h
      exact .read hs.1 hu
  | work =>
    simp only [toReceiver, h]
    simp only [step?] at h
    split at h
    · simp at h
    · rename_i hs
      simp only [Bool.or_eq_true, decide_eq_true_eq, not_or] at hs
      obtain rfl := Option.some.inj h
      exact .worked hs.1
  | answer reply =>
    simp only [toReceiver, h]
    simp only [step?] at h
    split at h
    · simp at h
    · rename_i hs
      simp only [Bool.or_eq_true, decide_eq_true_eq, not_or] at hs
      obtain rfl := Option.some.inj h
      exact .answered hs.1
  | finish =>
    simp only [toReceiver, h]
    simp only [step?] at h
    split at h
    · rename_i hs
      simp only [Bool.and_eq_true, decide_eq_true_eq] at hs
      obtain rfl := Option.some.inj h
      exact .finished hs.1 hs.2
    · simp at h

theorem step_happen (s : Session σ) (h : Happening σ) : Step s h (toReceiver h s) (happen h s) := by
  cases h with
  | outside store clock => exact .outside
  | move m =>
    cases hm : s.step? m with
    | none =>
      have ht : toReceiver (.move m) s = [] := by simp [toReceiver, hm]
      have hh : happen (.move m) s = s := by simp [happen, hm]
      rw [ht, hh]
      exact .refused hm
    | some s' =>
      rw [happen_of_step? hm]
      exact step_move hm

theorem happen_of_stopped (hs : s.stage = .stopped) (h : Happening σ) :
    ∃ store clock, happen h s = s.beside store clock := by
  have hstep := step_happen s h
  generalize happen h s = s', toReceiver h s = acts at hstep
  cases hstep with
  | @outside store clock => exact ⟨store, clock, rfl⟩
  | refused => exact ⟨s.receiver.store, s.receiver.clock, rfl⟩
  | _ => simp_all

theorem exists_finish {course : List (Happening σ)} (h₀ : s.stage ≠ .stopped)
    (h : (s.after course).stage = .stopped) :
    ∃ before rest store clock, course = before ++ .move .finish :: rest ∧
      (s.after before).stage = .closing ∧ (s.after before).receiver.worker.idle ∧
      s.after course = (s.after before).conclude.beside store clock := by
  induction course using List.reverseRecOn with
  | nil => exact absurd h h₀
  | append_singleton course happening ih =>
    rw [after_append, after_cons, after_nil] at h ⊢
    by_cases hs : (s.after course).stage = .stopped
    · obtain ⟨before, rest, store, clock, rfl, hclosing, hidle, hc⟩ := ih hs
      obtain ⟨store', clock', hh⟩ := happen_of_stopped hs happening
      refine ⟨before, rest ++ [happening], store', clock', by simp, hclosing, hidle, ?_⟩
      rw [hh, hc]
      rfl
    · have hstep := step_happen (s.after course) happening
      generalize hnext : happen happening (s.after course) = s' at h hstep
      generalize toReceiver happening (s.after course) = acts at hstep
      cases hstep with
      | finished hclosing hidle =>
        exact ⟨course, [], (s.after course).receiver.store, (s.after course).receiver.clock, rfl,
          hclosing, hidle, rfl⟩
      | @read bytes =>
        obtain ⟨unread, queue, events, he, -⟩ := readLine_eq (s.after course) bytes
        rw [he] at h
        exact absurd h hs
      | quit => simp at h
      | _ => exact absurd h hs

theorem exists_runWith {ε : Type} (respond : Receiver.Respond σ ε) (fuel : Nat) (s : Session σ)
    (env : ε) : ∃ course, (s.runWith respond fuel env).1 = s.after course := by
  induction fuel generalizing s env with
  | zero => exact ⟨[], rfl⟩
  | succ fuel ih =>
    unfold runWith
    split
    · exact ⟨[], rfl⟩
    · split
      · rename_i reply store env' _
        dsimp only
        split
        · rename_i s' hs
          obtain ⟨course, hc⟩ := ih s' env'
          refine ⟨.outside store s.receiver.clock :: .move (.answer reply) :: course, ?_⟩
          rw [hc, after_cons, after_cons]
          congr 1
          exact (happen_of_step? hs).symm
        · exact ⟨[.outside store s.receiver.clock], rfl⟩
      · split
        · rename_i s' hs
          obtain ⟨m, -, hm⟩ := Option.bind_eq_some_iff.1 hs
          obtain ⟨course, hc⟩ := ih s' env
          refine ⟨.move m :: course, ?_⟩
          rw [hc, after_cons, happen_of_step? hm]
        · exact ⟨[], rfl⟩

end

end Session

end Daemon

end PushKeeper
