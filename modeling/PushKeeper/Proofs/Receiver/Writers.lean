import PushKeeper.Proofs.Receiver.Mode

namespace PushKeeper.Receiver

open Registration (Endpoint Status)
open Store (Entries FaultyStore Honest KeyValueStore)
open Store.Values

variable {σ : Type} [KeyValueStore σ] [Honest σ] {r : Receiver σ}

/-- What a happening can put under a key, or take away from there. -/
inductive Writes (r : Receiver σ) : Happening σ → String → Option String → Prop
  | given {e i} : Writes r (.act (.handle (.newEndpoint e i))) endpointKey (some e.address)
  | taken {i} : Writes r (.act (.handle (.unregistered i))) endpointKey none
  | switched {enabled} : Writes r (.act (.airGapped enabled)) statusKey
      (some (Text.Numeral.render (if enabled then Status.airGapped else .unconfigured).ordinal))
  | answered {x alerting outcome} (hf : r.inFlight = some (.registering x alerting)) :
      Writes r (.act (.answer (.registered outcome))) statusKey
        (some (Text.Numeral.render outcome.ordinal))
  | missed (h : r.worker.current? = some .retry) (hf : r.inFlight = none)
      (he : r.entries.endpoint = none) :
      Writes r (.act .work) statusKey (some (Text.Numeral.render Status.missingEndpoint.ordinal))
  | stamped (h : r.worker.current? = some .fetch) (hf : r.inFlight = none)
      (hs : r.nextStrategy = .foreground) :
      Writes r (.act .work) lastFetchKey (some (Text.Numeral.render r.clock.toNat))

theorem eq_of_get?_insert_ne {e : Entries} {key value k : String}
    (h : (e.insert key value).get? k ≠ e.get? k) : k = key := by
  by_contra hk
  exact h (by simp [hk])

theorem eq_of_get?_erase_ne {e : Entries} {key k : String}
    (h : (e.erase key).get? k ≠ e.get? k) : k = key := by
  by_contra hk
  exact h (by simp [hk])

theorem Written.writes {a : Act} {e : Entries} (h : Written r a e) {key : String}
    (hne : e.get? key ≠ r.entries.get? key) : Writes r (.act a) key (e.get? key) := by
  cases h with
  | nothing => exact absurd rfl hne
  | endpoint h =>
    obtain rfl := eq_of_get?_insert_ne hne
    simpa using .given
  | noEndpoint =>
    obtain rfl := eq_of_get?_erase_ne hne
    simpa using .taken
  | mode h =>
    obtain rfl := eq_of_get?_insert_ne hne
    simpa using .switched
  | missed h hs he hf =>
    obtain rfl := eq_of_get?_insert_ne hne
    simpa using .missed h hf he
  | outcome hf hs =>
    obtain rfl := eq_of_get?_insert_ne hne
    simpa using .answered hf
  | stamp h hs hf =>
    obtain rfl := eq_of_get?_insert_ne hne
    simpa using .stamped h hf (by simpa [Fetch.Strategy.isForeground] using hs)

theorem writes_of_ne {h : Happening σ} {key : String}
    (hne : (happen h r).entries.get? key ≠ r.entries.get? key) :
    Writes r h key ((happen h r).entries.get? key) := by
  cases h with
  | act a => exact (written_act r a).writes hne
  | refusals s => simp at hne
  | drop => simp at hne

theorem writes_or_eq (r : Receiver σ) (hs : List (Happening σ)) (key : String) :
    (r.afterAll hs).entries.get? key = r.entries.get? key ∨
      ∃ before h rest, hs = before ++ h :: rest ∧
        Writes (r.afterAll before) h key ((r.afterAll hs).entries.get? key) := by
  refine (Run.after_eq_or_changed happen r (fun r : Receiver σ => r.entries.get? key) hs).imp_right ?_
  rintro ⟨before, h, rest, hsplit, hne, hlast⟩
  exact ⟨before, h, rest, hsplit, hlast ▸ writes_of_ne hne⟩

theorem Writes.key_eq {h : Happening σ} {key : String} {value : Option String}
    (hw : Writes r h key value) : key = endpointKey ∨ key = statusKey ∨ key = lastFetchKey := by
  cases hw <;> simp

/-- Whatever happens to a receiver, and whatever its store refuses in the meantime:

* what changes the text under a key is one of the writers of that key, and leaves there what it writes;
* so what is found under a key is what was there at the start or what one of its writers wrote;
* under any other key than the three, nothing ever changes. -/
theorem each_key_has_its_writers (name : String) (s : σ) (clock : UInt64) (policy : Fetch.Policy)
    (delivery : Fetch.Delivery) (hs : List (Happening σ)) (h : Happening σ) (key : String) :
    let start := new name s clock policy delivery
    let r := start.afterAll hs
    ((happen h r).entries.get? key ≠ r.entries.get? key →
        Writes r h key ((happen h r).entries.get? key)) ∧
      (r.entries.get? key = (Honest.entries s).get? key ∨
        ∃ before h rest, hs = before ++ h :: rest ∧
          Writes (start.afterAll before) h key (r.entries.get? key)) ∧
      (key ∉ [endpointKey, statusKey, lastFetchKey] →
        r.entries.get? key = (Honest.entries s).get? key) := by
  intro start r
  have hpast := writes_or_eq start hs key
  refine ⟨writes_of_ne, hpast, fun hkey => hpast.resolve_right ?_⟩
  rintro ⟨before, h, rest, -, hw⟩
  exact hkey (by simpa using hw.key_eq)

example :
    let s : FaultyStore := ⟨putStatus .registered .empty, [(.put, lastFetchKey)]⟩
    let r := new "registration" s 7 default (.fixed true)
    let r' := r.afterAll [.act (.handle (.message .empty "default")), .act .work, .act .work, .act .work,
      .act (.answer (.enqueued (.ok true))), .act .retry, .act .work, .act .work]
    r'.entries.pairs = [(statusKey, "4")] := by
  decide +kernel

end PushKeeper.Receiver
