import PushKeeper.Hook.Relay
import PushKeeper.Proofs.Receiver.Faults

namespace PushKeeper.Receiver

open Registration (Endpoint Status)
open Store (Entries FaultyStore Honest KeyValueStore)
open Store.Values

variable {σ : Type} [KeyValueStore σ] [Honest σ] {r : Receiver σ} {a : Act} {e : Entries}

theorem Written.eq_of_left (h : Written r a e) (hs : r.entries.status = .airGapped)
    (hs' : e.status ≠ .airGapped) : a = .airGapped false := by
  cases h with
  | @mode enabled h =>
    cases enabled with
    | false => rfl
    | true => simp [hs] at h
  | missed h hne | outcome hf hne => exact absurd hs hne
  | _ => simp [hs] at hs'

theorem Written.eq_of_entered (h : Written r a e) (hs : r.entries.status ≠ .airGapped)
    (hs' : e.status = .airGapped) :
    a = .airGapped true ∨ a = .answer (.registered .airGapped) := by
  cases h with
  | @mode enabled h =>
    cases enabled with
    | true => exact .inl rfl
    | false => simp at hs'
  | outcome hf hne =>
    obtain rfl : _ = Status.airGapped := by simpa using hs'
    exact .inr rfl
  | _ => simp_all

@[simp] theorem entries_refusals (r : Receiver σ) (s : σ) :
    (happen (.refusals s) r).entries = r.entries := by
  by_cases h : Honest.entries s = r.entries
  · simp only [happen, if_pos h]
    exact h
  · simp [happen, h]

@[simp] theorem entries_drop (r : Receiver σ) : (happen .drop r).entries = r.entries := rfl

theorem eq_of_left {h : Happening σ} (hs : r.entries.status = .airGapped)
    (hs' : (happen h r).entries.status ≠ .airGapped) : h = .act (.airGapped false) := by
  cases h with
  | act a => rw [(written_act r a).eq_of_left hs hs']
  | refusals s => simp [hs] at hs'
  | drop => simp [hs] at hs'

theorem eq_of_entered {h : Happening σ} (hs : r.entries.status ≠ .airGapped)
    (hs' : (happen h r).entries.status = .airGapped) :
    h = .act (.airGapped true) ∨ h = .act (.answer (.registered .airGapped)) := by
  cases h with
  | act a =>
    obtain rfl | rfl := (written_act r a).eq_of_entered hs hs'
    · exact .inl rfl
    · exact .inr rfl
  | refusals s => simp [hs] at hs'
  | drop => simp [hs] at hs'

section

variable (r : Receiver σ) {hs : List (Happening σ)}

theorem kept_of_not_left (hn : .act (.airGapped false) ∉ hs)
    (hr : r.entries.status = .airGapped) : (r.afterAll hs).entries.status = .airGapped := by
  refine Run.after_keeps (P := fun r : Receiver σ => r.entries.status = .airGapped) hr ?_
  intro h hmem r hr
  by_contra hne
  exact hn (eq_of_left hr hne ▸ hmem)

theorem kept_of_not_entered (hn : .act (.airGapped true) ∉ hs)
    (ha : .act (.answer (.registered .airGapped)) ∉ hs) (hr : r.entries.status ≠ .airGapped) :
    (r.afterAll hs).entries.status ≠ .airGapped := by
  refine Run.after_keeps (P := fun r : Receiver σ => r.entries.status ≠ .airGapped) hr ?_
  intro h hmem r hr he
  obtain rfl | rfl := eq_of_entered hr he
  · exact hn hmem
  · exact ha hmem

end

/-- Whatever happens to a receiver, and whatever its store refuses in the meantime:

* what takes the stored status away from the mode is a call of the user to leave it, so that without
  one the mode is kept;
* what takes the stored status into the mode is a call of the user to enter it, unless the relay
  answers with it;
* a relay behind a command never does. -/
theorem only_user_switches_mode (name : String) (s : σ) (clock : UInt64) (policy : Fetch.Policy)
    (delivery : Fetch.Delivery) (hs : List (Happening σ)) (h : Happening σ) :
    let r := (new name s clock policy delivery).afterAll hs
    (r.entries.status = .airGapped → (happen h r).entries.status ≠ .airGapped →
        h = .act (.airGapped false)) ∧
      (∀ more, .act (.airGapped false) ∉ more → r.entries.status = .airGapped →
        (r.afterAll more).entries.status = .airGapped) ∧
      (h ≠ .act (.answer (.registered .airGapped)) → r.entries.status ≠ .airGapped →
        (happen h r).entries.status = .airGapped → h = .act (.airGapped true)) ∧
      (∀ more, .act (.answer (.registered .airGapped)) ∉ more →
        .act (.airGapped true) ∉ more → r.entries.status ≠ .airGapped →
        (r.afterAll more).entries.status ≠ .airGapped) ∧
      ∀ (ω : Type) [Hook.Host ω] (relay : Hook.Relay) (x : Option Endpoint) (w : ω),
        (relay.register x w).1 ≠ .airGapped := by
  intro r
  refine ⟨eq_of_left, fun more hn hr => kept_of_not_left r hn hr, ?_,
    fun more ha hn hr => kept_of_not_entered r hn ha hr, fun ω _ relay x w =>
    relay.register_ne_airGapped x w⟩
  intro ha hr he
  exact (eq_of_entered hr he).resolve_right ha

example :
    let s : FaultyStore := ⟨putStatus .registered .empty, [(.put, statusKey)]⟩
    let r := new "registration" s 0 default (.fixed true)
    let r' := r.afterAll [.act (.airGapped true)]
    r'.entries.status = .registered ∧
      (r'.afterAll [.refusals ⟨r'.entries, []⟩, .act (.airGapped true)]).entries.status =
        .airGapped := by
  decide +kernel

end PushKeeper.Receiver
