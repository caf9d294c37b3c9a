import PushKeeper.Proofs.Receiver.Run

namespace PushKeeper.Receiver

open Registration (Endpoint Status)
open Store (Faultless KeyValueStore)
open Store.Values

def Act.mode? : Act → Option Bool
  | .airGapped enabled => some enabled
  | _ => none

def lastMode (acts : List Act) : Option Bool :=
  (acts.filterMap Act.mode?).getLast?

@[simp] theorem lastMode_nil : lastMode [] = none := rfl

@[simp] theorem lastMode_concat (acts : List Act) (a : Act) :
    lastMode (acts ++ [a]) = a.mode?.or (lastMode acts) := by
  cases h : a.mode? <;> simp [lastMode, h]

theorem lastMode_cons (a : Act) (acts : List Act) :
    lastMode (a :: acts) = (lastMode acts).or a.mode? := by
  cases h : a.mode? with
  | none => simp [lastMode, h]
  | some enabled =>
    rw [lastMode, List.filterMap_cons_some h, List.getLast?_cons]
    cases hl : (acts.filterMap Act.mode?).getLast? <;> simp [lastMode, hl]

def Act.answersRelay : Act → Bool
  | .answer (.registered _) => true
  | _ => false

variable {σ : Type} [KeyValueStore σ]

/-- The answer leaves no trace but that the task which waited for it is at its end. -/
def Discards (outcome : Status) (r : Receiver σ) : Prop :=
  act (.answer (.registered outcome)) r = r.done

variable [Faultless σ] {r r' r₀ : Receiver σ} {a : Act} {acts : List Act} {x : Option Endpoint}
  {alerting : Bool}

theorem Step.inFlight_eq (h : Step r a r') (hr : Steady r)
    (hf : r.inFlight = some (.registering x alerting)) (ha : a.answersRelay = false) :
    r'.inFlight = some (.registering x alerting) := by
  have hw := hr.current_of_inFlight
  cases h with
  | moved h => simp_all
  | recorded | discarded => simp [Act.answersRelay] at ha
  | _ => simp_all

theorem Step.status_iff (h : Step r a r') (hr : Steady r)
    (hf : r.inFlight = some (.registering x alerting)) (ha : a.answersRelay = false) :
    r'.status = .airGapped ↔ a.mode?.getD (decide (r.status = .airGapped)) = true := by
  have hw := hr.current_of_inFlight
  cases h with
  | moved h => simp_all
  | recorded | discarded => simp [Act.answersRelay] at ha
  | clock | delivery => simp [Act.mode?]
  | _ => simp_all [Act.mode?]

theorem awaiting_after (hr : Steady r) (hf : r.inFlight = some (.registering x alerting))
    (ha : ∀ a ∈ acts, a.answersRelay = false) :
    (r.after acts).inFlight = some (.registering x alerting) ∧
      ((r.after acts).status = .airGapped ↔
        (lastMode acts).getD (decide (r.status = .airGapped)) = true) := by
  induction acts using List.reverseRecOn with
  | nil => exact ⟨hf, by simp⟩
  | append_singleton acts a ih =>
    obtain ⟨hf', hs⟩ := ih fun b hb => ha b (List.mem_append_left _ hb)
    have ha' := ha a (by simp)
    have hstep := step_concat r acts a
    refine ⟨hstep.inFlight_eq (hr.after acts) hf' ha', ?_⟩
    rw [hstep.status_iff (hr.after acts) hf' ha', lastMode_concat]
    cases hm : a.mode? with
    | none => simpa using hs
    | some enabled => simp

theorem discards_iff {outcome : Status} (hf : r.inFlight = some (.registering x alerting)) :
    Discards outcome r ↔ r.status = .airGapped := by
  have hstep := step_act r (.answer (.registered outcome))
  unfold Discards
  generalize act (.answer (.registered outcome)) r = r' at hstep ⊢
  cases hstep with
  | uncalled h => simp [hf] at h
  | misfit h hfits =>
    obtain rfl : InFlight.registering x alerting = _ := by simpa [hf] using h
    simp [InFlight.fits] at hfits
  | discarded h hs => simp [hs]
  | recorded h hs =>
    simp only [hs, iff_false]
    intro heq
    simpa using congrArg published heq

/-- An answer of the relay, called for before the user shut it out and not heard until later, is
thrown away if and only if the user did not leave the mode again as the last thing. -/
theorem discards_iff_not_left (name : String) (s : σ) (clock : UInt64) (policy : Fetch.Policy)
    (delivery : Fetch.Delivery) (before between : List Act) (x : Option Endpoint) (alerting : Bool)
    (outcome : Status)
    (hf : ((new name s clock policy delivery).after before).inFlight =
      some (.registering x alerting))
    (hb : ∀ a ∈ between, a.answersRelay = false) :
    Discards outcome
        ((new name s clock policy delivery).after (before ++ .airGapped true :: between)) ↔
      lastMode between ≠ some false := by
  have hr := (steady_new name s clock policy delivery).after before
  have hall : ∀ a ∈ .airGapped true :: between, a.answersRelay = false := by
    simpa [Act.answersRelay] using hb
  obtain ⟨hf', hs⟩ := awaiting_after hr hf hall
  rw [after_append, discards_iff hf', hs, lastMode_cons]
  cases lastMode between <;> simp [Act.mode?]

/-- The relay is called for a new endpoint. Before it answers the user shuts it out, lets it in and
shuts it out again: the answer is thrown away. -/
theorem discards_of_shut_out_again :
    let s := putEndpoint ⟨"A"⟩ (putStatus .registered Store.Entries.empty)
    let r := new "registration" s 0 default (.fixed true)
    let before : List Act := [.handle (.newEndpoint ⟨"B"⟩ "default"), .work, .work, .work]
    let between : List Act := [.airGapped false, .airGapped true]
    (r.after before).inFlight = some (.registering (some ⟨"B"⟩) true) ∧
      (∀ a ∈ between, a.answersRelay = false) ∧ lastMode between ≠ some false ∧
      Discards .internalError (r.after (before ++ .airGapped true :: between)) := by
  intro s r before between
  have hf : (r.after before).inFlight = some (.registering (some ⟨"B"⟩) true) := by decide +kernel
  have hb : ∀ a ∈ between, a.answersRelay = false := by decide
  have hl : lastMode between ≠ some false := by decide
  exact ⟨hf, hb, hl, (discards_iff_not_left _ _ _ _ _ before between _ _ _ hf hb).2 hl⟩

/-- The relay is called for a new endpoint. Before it answers the user shuts it out and lets it in
again: the answer is stored and published, and the user is alerted. -/
theorem recorded_after_shut_out :
    let s := putEndpoint ⟨"A"⟩ (putStatus .registered Store.Entries.empty)
    let r := new "registration" s 0 default (.fixed true)
    let r := r.after [.handle (.newEndpoint ⟨"B"⟩ "default"), .work, .work, .work]
    let r' := r.after [.airGapped true, .airGapped false]
    let r'' := act (.answer (.registered .internalError)) r'
    r.inFlight = some (.registering (some ⟨"B"⟩) true) ∧ r.status = .registered ∧
      (act (.airGapped true) r).status = .airGapped ∧
      r'.status = .unconfigured ∧ r''.status = .internalError ∧
      r''.history = r'.history ++
        [.published ⟨some ⟨"B"⟩, .internalError⟩, .alerted .endpointChangedError] := by
  decide +kernel

end PushKeeper.Receiver
