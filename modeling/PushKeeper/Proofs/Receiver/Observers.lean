import PushKeeper.Proofs.Receiver.Registered

namespace PushKeeper.Receiver

open Registration (Endpoint Snapshot Status)
open Store (Faultless KeyValueStore)
open Store.Values

variable {σ : Type} [KeyValueStore σ] [Faultless σ]

def stored (r : Receiver σ) : Snapshot := ⟨r.endpoint, r.status⟩

def Untold (r : Receiver σ) : Prop :=
  r.published.getLast? ≠ some r.stored

/-- A registration is queued or under way. At its end it publishes what is stored, unless the relay was
shut out, which is published at once. -/
def Owing (r : Receiver σ) : Prop :=
  r.status ≠ .airGapped ∧ (r.worker.pending.isSome ∨ r.worker.current?.isSome)

variable {r r' r₀ : Receiver σ} {a : Act} {acts : List Act}

theorem Untold.of_quiet (hu : Untold r') (hs : r'.stored = r.stored)
    (hp : r'.published = r.published) (ho : Owing r → Owing r') :
    Owing r' ∨ (¬ Owing r ∧ Untold r ∧ r'.stored = r.stored) := by
  by_cases h : Owing r
  · exact .inl (ho h)
  · refine .inr ⟨h, ?_, hs⟩
    rwa [Untold, hp, hs] at hu

theorem Owing.moved (hr : Registrar r) (ho : Owing r) (hw : r.worker.current? = none) :
    Owing { r with worker := r.worker.advance } := by
  obtain ⟨hs, ho⟩ := ho
  refine ⟨hs, ?_⟩
  obtain ⟨-, hp⟩ | ⟨job, -, -, ha⟩ := Worker.advance_cases hr.steady.closed_eq
  · left
    simpa [hw, hp] using ho
  · right
    simp [ha, Worker.current?]

theorem Untold.of_step (hu : Untold r') (hr : Registrar r) (h : Step r a r') :
    Owing r' ∨ (¬ Owing r ∧ Untold r ∧ r'.stored = r.stored) := by
  have hc := hr.steady.closed_eq
  cases h with
  -- these publish what they change
  | toldAirGapped | told | unregistered | entered | left | leftBare | missed | recorded =>
    simp [Untold, stored] at hu
  -- here the publication is left to the task that is queued
  | queuedAlerting h hs => exact .inl ⟨by simp [hs], .inl (by simp [Worker.submit_pending, hc])⟩
  | queued h hs =>
    exact .inl ⟨by rcases hs with hs | hs <;> simp [hs], .inl (by simp [Worker.submit_pending, hc])⟩
  | accepted | retry =>
    refine hu.of_quiet rfl rfl fun ho => ⟨ho.1, .inl ?_⟩
    simp [Worker.submit_pending, hc]
  | moved hw => exact hu.of_quiet rfl rfl fun ho => ho.moved hr hw
  | gaveUp hw hf hs | discarded hf hs => exact hu.of_quiet rfl rfl fun ho => absurd hs ho.1
  | registrationFailed =>
    exact hu.of_quiet rfl (by simp) id
  | fetching hw => exact absurd hw hr.current_ne
  | enqueued hf | refused hf | pulled hf =>
    obtain ⟨x, alerting, ht⟩ := hr.inFlight_eq _ hf
    cases ht
  | _ => exact hu.of_quiet rfl rfl id

theorem owing_of_untold (hr : Registrar r₀) (hm : ∀ a ∈ acts, a.isMessage = false)
    (hu : Untold (r₀.after acts)) :
    Owing (r₀.after acts) ∨ ∀ p, p <+: acts → (r₀.after p).stored = r₀.stored := by
  induction acts using List.reverseRecOn with
  | nil =>
    refine .inr fun p hpre => ?_
    rw [List.prefix_nil.1 hpre, after_nil]
  | append_singleton acts a ih =>
    have hm' : ∀ b ∈ acts, b.isMessage = false := fun b hb => hm b (List.mem_append_left _ hb)
    obtain ho | ⟨hno, hu', hs⟩ := hu.of_step (hr.after hm') (step_concat r₀ acts a)
    · exact .inl ho
    · right
      have hsame := (ih hm' hu').resolve_left hno
      intro p hpre
      obtain rfl | hpre := List.prefix_concat_iff.1 hpre
      · exact hs.trans (hsame acts List.prefix_rfl)
      · exact hsame p hpre

/-- When a receiver that no message reaches is at rest, and its endpoint or status was ever another one
than at the start, the last snapshot that observers were sent is the stored one. -/
theorem last_published_eq_stored (name : String) (s : σ) (clock : UInt64) (policy : Fetch.Policy)
    (delivery : Fetch.Delivery) (acts p : List Act) (hm : ∀ a ∈ acts, a.isMessage = false)
    (hi : ((new name s clock policy delivery).after acts).worker.idle) (hp : p <+: acts)
    (hch : ((new name s clock policy delivery).after p).stored ≠
      (new name s clock policy delivery).stored) :
    ((new name s clock policy delivery).after acts).published.getLast? =
      some ((new name s clock policy delivery).after acts).stored := by
  have hr := registrar_new name s clock policy delivery
  by_contra hu
  obtain ⟨-, ho⟩ | hsame := owing_of_untold hr hm hu
  · obtain ⟨hpending, hcurrent⟩ := (hr.after hm).steady.sound.rest_of_idle hi
    simp [hpending, hcurrent] at ho
  · exact hch (hsame p hp)

/-- Two endpoints come and the relay is called for the second; a third comes, whose task waits when the
user shuts the relay out. No answer is stored, and observers know it all. -/
theorem last_published_of_shut_out :
    let s := putStatus .registered Store.Entries.empty
    let r := new "registration" s 0 default (.fixed true)
    let p : List Act := [.handle (.newEndpoint ⟨"A"⟩ "default")]
    let acts : List Act := p ++
      [.handle (.newEndpoint ⟨"B"⟩ "default"), .work, .work, .work,
        .handle (.newEndpoint ⟨"C"⟩ "default"), .airGapped true, .answer (.registered .registered),
        .work, .work, .answer (.registered .internalError), .work]
    (∀ a ∈ acts, a.isMessage = false) ∧ (r.after acts).worker.idle ∧
      (r.after p).stored ≠ r.stored ∧ (r.after acts).stored = ⟨some ⟨"C"⟩, .airGapped⟩ ∧
      (r.after acts).published.getLast? = some ⟨some ⟨"C"⟩, .airGapped⟩ := by
  intro s r p acts
  have hm : ∀ a ∈ acts, a.isMessage = false := by decide
  have hi : (r.after acts).worker.idle := by decide +kernel
  have hch : (r.after p).stored ≠ r.stored := by decide +kernel
  have hs : (r.after acts).stored = ⟨some ⟨"C"⟩, .airGapped⟩ := by decide +kernel
  have hr : new "registration" s 0 default (.fixed true) = r := rfl
  have h := last_published_eq_stored "registration" s 0 default (.fixed true) acts p hm
  rw [hr] at h
  refine ⟨hm, hi, hch, hs, ?_⟩
  rw [← hs]
  exact h hi (List.prefix_append _ _) hch

end PushKeeper.Receiver
