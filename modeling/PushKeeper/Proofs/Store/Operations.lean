import PushKeeper.Proofs.Store.Honest

namespace PushKeeper.Store.Values

open Registration (Endpoint Status)

/-- A change of one of the three values. -/
inductive Operation
  | replaceEndpoint (e : Endpoint)
  | clearEndpoint
  | setStatus (status : Status)
  | recordOutcome (outcome : Status)
  | switchAirGapped (enabled : Bool)
  | setLastFetch (time : UInt64)

namespace Operation

def key : Operation → String
  | replaceEndpoint _ => endpointKey
  | clearEndpoint => endpointKey
  | setStatus _ => statusKey
  | recordOutcome _ => statusKey
  | switchAirGapped _ => statusKey
  | setLastFetch _ => lastFetchKey

def text? : Operation → Option String
  | replaceEndpoint e => some e.address
  | clearEndpoint => none
  | setStatus status => some (Text.Numeral.render status.ordinal)
  | recordOutcome outcome => some (Text.Numeral.render outcome.ordinal)
  | switchAirGapped enabled =>
    some (Text.Numeral.render (if enabled then Status.airGapped else .unconfigured).ordinal)
  | setLastFetch time => some (Text.Numeral.render time.toNat)

/-- The entries are such that the operation has something to change. -/
def Applies : Operation → Entries → Prop
  | replaceEndpoint e, s => s.endpoint ≠ some e
  | recordOutcome _, s => s.status ≠ .airGapped
  | switchAirGapped enabled, s => decide (s.status = .airGapped) ≠ enabled
  | _, _ => True

/-- The operation looks at its value before it changes it. -/
def looks : Operation → Bool
  | replaceEndpoint _ => true
  | recordOutcome _ => true
  | switchAirGapped _ => true
  | _ => false

def change (op : Operation) (s : Entries) : Entries :=
  match op.text? with
  | some text => s.insert op.key text
  | none => s.erase op.key

variable {σ : Type} [KeyValueStore σ]

/-- Tells whether anything was changed; an operation that does not look changes its value always. -/
def run : Operation → Access σ Bool
  | replaceEndpoint e => Values.replaceEndpoint e
  | clearEndpoint => do Values.clearEndpoint; return true
  | setStatus status => do Values.setStatus status; return true
  | recordOutcome outcome => Values.recordOutcome outcome
  | switchAirGapped enabled => Values.switchAirGapped enabled
  | setLastFetch time => do Values.setLastFetch time.toNat; return true

def write (op : Operation) : Access σ Unit :=
  match op.text? with
  | some text => writing (KeyValueStore.put op.key text)
  | none => writing (KeyValueStore.remove op.key)

def look : Operation → σ → Except Failure Bool
  | replaceEndpoint e, s => (endpoint s).map fun x => decide ¬ x = some e
  | recordOutcome _, s => (status s).map fun x => decide ¬ x = .airGapped
  | switchAirGapped enabled, s => (status s).map fun x => decide ¬ decide (x = .airGapped) = enabled
  | _, _ => .ok true

/-- What the typed value is read as. -/
def Reads : Operation → σ → Prop
  | replaceEndpoint e, s => endpoint s = .ok (some e)
  | clearEndpoint, s => endpoint s = .ok none
  | setStatus x, s => status s = .ok x
  | recordOutcome outcome, s => status s = .ok outcome
  | switchAirGapped enabled, s => status s = .ok (if enabled then .airGapped else .unconfigured)
  | setLastFetch time, s => lastFetch s = .ok time.toNat

theorem on_run (op : Operation) (s : σ) : op.run.on s =
    match op.look s with
    | .error e => (.error e, s)
    | .ok applies => if applies then Access.on (do op.write; return true) s else (.ok false, s) := by
  have hguarded {α : Type} (check : σ → Except Failure α) (skips : α → Prop) [DecidablePred skips]
      (change : Access σ Unit) :
      Access.on (do
          if skips (← reading check) then return false
          change
          return true) s =
        match (check s).map fun a => decide ¬ skips a with
        | .error e => (.error e, s)
        | .ok applies => if applies then Access.on (do change; return true) s else (.ok false, s) := by
    rw [on_bind, on_reading]
    cases check s with
    | error e => rfl
    | ok a => by_cases h : skips a <;> simp [h, Except.map]
  cases op with
  | replaceEndpoint e => exact hguarded _ _ _
  | recordOutcome outcome => exact hguarded _ _ _
  | switchAirGapped enabled => exact hguarded _ _ _
  | clearEndpoint | setStatus | setLastFetch => rfl

theorem endpoint_eq_map (s : σ) :
    endpoint s = (KeyValueStore.get endpointKey s).map (Option.map Endpoint.mk) := by
  rw [endpoint]
  cases KeyValueStore.get endpointKey s <;> rfl

theorem status_eq_map (s : σ) : status s = (KeyValueStore.get statusKey s).map statusOf := by
  rw [status]
  cases KeyValueStore.get statusKey s <;> rfl

theorem lastFetch_eq_map (s : σ) : lastFetch s = (KeyValueStore.get lastFetchKey s).map timeOf := by
  rw [lastFetch]
  cases KeyValueStore.get lastFetchKey s <;> rfl

theorem reads_of_get {op : Operation} {s : σ} (h : KeyValueStore.get op.key s = .ok op.text?) :
    op.Reads s := by
  have hstatus {x : Status} (h : KeyValueStore.get statusKey s =
      .ok (some (Text.Numeral.render x.ordinal))) : status s = .ok x := by
    rw [status_eq_map, h, Except.map, statusOf_render]
  cases op with
  | replaceEndpoint | clearEndpoint => exact (endpoint_eq_map s).trans (congrArg _ h)
  | setStatus x => exact hstatus h
  | recordOutcome outcome => exact hstatus h
  | switchAirGapped enabled => exact hstatus h
  | setLastFetch time =>
    have hlt : time.toNat < timeBound := time.toNat_lt
    refine ((lastFetch_eq_map s).trans (congrArg _ h)).trans (congrArg Except.ok ?_)
    simp [timeOf, text?, Text.Numeral.parse?_render hlt]

theorem exists_look_iff {op : Operation} {s : σ} : (∃ b, op.look s = .ok b) ↔
    (op.looks = true → ∃ raw, KeyValueStore.get op.key s = .ok raw) := by
  have hmap {α β : Type} {f : α → β} {x : Except Failure α} :
      (∃ b, x.map f = .ok b) ↔ ∃ a, x = .ok a := by
    cases x <;> simp [Except.map]
  cases op with
  | replaceEndpoint e =>
    rw [look, endpoint_eq_map, hmap, hmap]
    simp [looks, key]
  | recordOutcome | switchAirGapped =>
    rw [look, status_eq_map, hmap, hmap]
    simp [looks, key]
  | clearEndpoint | setStatus | setLastFetch => simp [looks, look]

@[simp] theorem get?_change (op : Operation) (s : Entries) (k : String) :
    (op.change s).get? k = if k = op.key then op.text? else s.get? k := by
  cases op <;> simp [change, text?]

theorem write_intact [Intact σ] {op : Operation} {s : σ} {cause : Failure}
    (h : (op.write.on s).1 = .error cause) : (op.write.on s).2 = s := by
  revert h
  rw [write]
  cases op.text? with
  | some text => exact Intact.put_error
  | none => exact Intact.remove_error

theorem on_run_of_ne [Intact σ] (op : Operation) {s : σ} (h : (op.run.on s).1 ≠ .ok true) :
    (op.run.on s).2 = s := by
  rw [on_run] at h ⊢
  cases hl : op.look s with
  | error cause => rfl
  | ok applies =>
    cases applies with
    | false => rfl
    | true =>
      have hintact := @write_intact _ _ _ op s
      simp only [hl, if_true, on_bind] at h hintact ⊢
      generalize op.write.on s = result at h hintact ⊢
      obtain ⟨cause | _, s'⟩ := result
      · exact hintact rfl
      · exact absurd rfl h

variable [Honest σ] {op : Operation} {s : σ}

theorem look_ok {b : Bool} (h : op.look s = .ok b) : b = true ↔ op.Applies (Honest.entries s) := by
  have hmap {α : Type} {f : α → Bool} {x : Except Failure α} (h : x.map f = .ok b) :
      ∃ a, x = .ok a ∧ b = f a := by
    cases x with
    | error e => cases h
    | ok a => exact ⟨a, rfl, (Except.ok.inj h).symm⟩
  cases op with
  | replaceEndpoint e =>
    obtain ⟨x, hx, rfl⟩ := hmap h
    simp [Applies, endpoint_ok hx]
  | recordOutcome outcome =>
    obtain ⟨x, hx, rfl⟩ := hmap h
    simp [Applies, status_ok hx]
  | switchAirGapped enabled =>
    obtain ⟨x, hx, rfl⟩ := hmap h
    simp [Applies, status_ok hx]
  | clearEndpoint | setStatus | setLastFetch =>
    obtain rfl := Except.ok.inj h
    simp [Applies]

theorem write_ok (h : (op.write.on s).1 = .ok ()) :
    Honest.entries (op.write.on s).2 = op.change (Honest.entries s) := by
  revert h
  rw [write, change]
  cases op.text? with
  | some text => exact Honest.put_ok
  | none => exact Honest.remove_ok

theorem write_error {cause : Failure} (h : (op.write.on s).1 = .error cause) :
    Honest.entries (op.write.on s).2 = Honest.entries s := by
  revert h
  rw [write]
  cases op.text? with
  | some text => exact Honest.put_error
  | none => exact Honest.remove_error

theorem attempt_run (op : Operation) (s : σ) :
    Attempt s (op.Applies (Honest.entries s)) (op.change (Honest.entries s)) (op.run.on s) := by
  rw [on_run]
  cases hl : op.look s with
  | error cause => exact .failed rfl
  | ok applies =>
    have happlies := look_ok hl
    cases applies with
    | false => exact .skipped (by simpa using happlies)
    | true =>
      have hok := @write_ok _ _ _ op s
      have herror := @write_error _ _ _ op s
      simp only [if_true, on_bind]
      generalize op.write.on s = result at hok herror ⊢
      obtain ⟨cause | _, s'⟩ := result
      · exact .failed (herror rfl)
      · exact .made (by simpa using happlies) (hok rfl)

theorem on_run_of_not_applies (op : Operation) (h : ¬ op.Applies (Honest.entries s)) :
    ∃ result, result ≠ .ok true ∧ op.run.on s = (result, s) := by
  rw [on_run]
  cases hl : op.look s with
  | error cause => exact ⟨_, by simp, rfl⟩
  | ok applies =>
    obtain rfl : applies = false := by simpa [h] using look_ok hl
    exact ⟨_, by simp, rfl⟩

theorem status_of_switchAirGapped {enabled b : Bool}
    (h : ((switchAirGapped enabled).run.on s).1 = .ok b) :
    (Honest.entries ((switchAirGapped enabled).run.on s).2).status = .airGapped ↔ enabled = true := by
  have ha := attempt_run (.switchAirGapped enabled) s
  cases b with
  | false =>
    have hsame : decide ((Honest.entries s).status = .airGapped) = enabled := by
      simpa [Applies] using ha.iff_applies h
    rw [ha.unchanged (by simp [h]), ← hsame]
    simp
  | true =>
    rw [ha.eq_changed h, Entries.status, get?_change]
    cases enabled <;> simp [key, text?, statusOf_render]

theorem exists_run_iff : (∃ b, (op.run.on s).1 = .ok b) ↔
    (op.looks = true → ∃ raw, KeyValueStore.get op.key s = .ok raw) ∧
      (op.Applies (Honest.entries s) → (op.write.on s).1 = .ok ()) := by
  rw [on_run, ← exists_look_iff]
  cases hl : op.look s with
  | error cause => simp
  | ok applies =>
    rw [← look_ok hl]
    cases applies with
    | false => simp
    | true =>
      simp only [if_true, on_bind]
      rcases op.write.on s with ⟨cause | _, s'⟩ <;> simp

end Operation

variable {σ : Type} [KeyValueStore σ] [Honest σ]

theorem attempt_replaceEndpoint (s : σ) (e : Endpoint) :
    Attempt s ((Honest.entries s).endpoint ≠ some e)
      ((Honest.entries s).insert endpointKey e.address) ((replaceEndpoint e).on s) :=
  Operation.attempt_run (.replaceEndpoint e) s

theorem attempt_recordOutcome (s : σ) (outcome : Status) :
    Attempt s ((Honest.entries s).status ≠ .airGapped)
      ((Honest.entries s).insert statusKey (Text.Numeral.render outcome.ordinal))
      ((recordOutcome outcome).on s) :=
  Operation.attempt_run (.recordOutcome outcome) s

theorem attempt_switchAirGapped (s : σ) (enabled : Bool) :
    Attempt s (decide ((Honest.entries s).status = .airGapped) ≠ enabled)
      ((Honest.entries s).insert statusKey
        (Text.Numeral.render (if enabled then Status.airGapped else .unconfigured).ordinal))
      ((switchAirGapped enabled).on s) :=
  Operation.attempt_run (.switchAirGapped enabled) s

/-- Whatever a store holds and refuses, an operation on one of the three typed values happens as a whole or not
at all:

* one that fails, or reports that there was nothing to change, leaves every entry as it was;
* one that reports a change has changed no other key, and whoever can read the value finds the one given;
* it reports a change exactly if the entries called for it;
* once the mode was switched, or found switched, the status tells the mode;
* it fails only if it is refused its look, or the write where there is one to make. -/
theorem happens_as_a_whole (op : Operation) (s : σ) :
    let r := op.run.on s
    (r.1 ≠ .ok true → Honest.entries r.2 = Honest.entries s) ∧
      (r.1 = .ok true →
        (∀ k, k ≠ op.key → (Honest.entries r.2).get? k = (Honest.entries s).get? k) ∧
        ∀ (τ : Type) [KeyValueStore τ] [Honest τ] (t : τ) (raw : Option String),
          Honest.entries t = Honest.entries r.2 → KeyValueStore.get op.key t = .ok raw → op.Reads t) ∧
      (∀ b, r.1 = .ok b → (b = true ↔ op.Applies (Honest.entries s))) ∧
      (∀ enabled b, op = .switchAirGapped enabled → r.1 = .ok b →
        ((Honest.entries r.2).status = .airGapped ↔ enabled = true)) ∧
      ((∃ b, r.1 = .ok b) ↔
        (op.looks = true → ∃ raw, KeyValueStore.get op.key s = .ok raw) ∧
          (op.Applies (Honest.entries s) → (op.write.on s).1 = .ok ())) := by
  have ha := op.attempt_run s
  refine ⟨ha.unchanged, fun hr => ⟨fun k hk => ?_, fun τ _ _ t raw ht hget => ?_⟩,
    fun b => ha.iff_applies, ?_, Operation.exists_run_iff⟩
  · simp [ha.eq_changed hr, hk]
  · refine Operation.reads_of_get ?_
    rw [hget, Honest.get_ok hget, ht, ha.eq_changed hr]
    simp
  · rintro enabled b rfl hb
    exact Operation.status_of_switchAirGapped hb

example :
    (Entries.ofList [(statusKey, " +01\n")]).status = .airGapped ∧
      (Entries.ofList [(statusKey, "1.0")]).status = .unconfigured := by
  decide +kernel

end PushKeeper.Store.Values
