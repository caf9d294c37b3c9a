import Mathlib.Data.List.Forall2
import PushKeeper.Feed.Request
import PushKeeper.Proofs.Json.Strings

namespace PushKeeper.Feed

open Json (Value)

def named (ms : List (String × Value)) (name : String) : List Value :=
  (ms.filter (·.1 = name)).map (·.2)

def Given (ms : List (String × Value)) (name absent s : String) : Prop :=
  named ms name = [.string s] ∨ named ms name = [] ∧ s = absent

/-- The members of an object denote a request. -/
inductive Denotes (ms : List (String × Value)) : Request → Prop
  | newEndpoint {address i : String} (ht : named ms "event" = [.string "new_endpoint"])
      (he : named ms "endpoint" = [.string address]) (hi : Given ms "instance" "default" i) :
      Denotes ms (.newEndpoint ⟨address⟩ i)
  | registrationFailed {i : String} (ht : named ms "event" = [.string "registration_failed"])
      (hi : Given ms "instance" "default" i) : Denotes ms (.registrationFailed i)
  | unregistered {i : String} (ht : named ms "event" = [.string "unregistered"])
      (hi : Given ms "instance" "default" i) : Denotes ms (.unregistered i)
  | message {payload i : String} (ht : named ms "event" = [.string "message"])
      (hp : Given ms "payload" "" payload) (hi : Given ms "instance" "default" i) :
      Denotes ms (.message payload i)
  | retry (ht : named ms "event" = [.string "retry"]) : Denotes ms .retry
  | airGapped {b : Bool} (ht : named ms "event" = [.string "air_gapped"])
      (he : named ms "enabled" = [.bool b]) : Denotes ms (.airGapped b)
  | quit (ht : named ms "event" = [.string "quit"]) : Denotes ms .quit

def FieldType.Fits : FieldType → Value → Prop
  | .text, v => ∃ s, v = .string s
  | .flag, v => ∃ b, v = .bool b

/-- What can be wrong with the members of an object. -/
inductive Malformed (ms : List (String × Value)) : Prop
  | untagged (h : named ms "event" = [])
  | retagged (h : 2 ≤ (named ms "event").length)
  | unknown {v : Value} (hv : v ∈ named ms "event") (h : ∀ t : Tag, v ≠ .string t.label)
  | lacking {t : Tag} {f : Field} (ht : named ms "event" = [.string t.label]) (hf : f ∈ t.fields)
      (hneeded : f.absent = none) (h : named ms f.name = [])
  | mistyped {t : Tag} {f : Field} {v : Value} (ht : named ms "event" = [.string t.label])
      (hf : f ∈ t.fields) (hv : v ∈ named ms f.name) (h : ¬ f.type.Fits v)
  | repeated {t : Tag} {f : Field} (ht : named ms "event" = [.string t.label]) (hf : f ∈ t.fields)
      (h : 2 ≤ (named ms f.name).length)

def FieldValue (ms : List (String × Value)) (f : Field) (d : Datum) : Prop :=
  (∃ v, named ms f.name = [v] ∧ f.read v = .ok d) ∨ named ms f.name = [] ∧ f.absent = some d

variable {ms : List (String × Value)} {f : Field} {d : Datum} {t : Tag} {data : List Datum} {r : Request}
  {v : Value} {name s : String}

@[simp] theorem named_nil (name : String) : named [] name = [] := rfl

@[simp] theorem named_cons (name other : String) (v : Value) (ms : List (String × Value)) :
    named ((name, v) :: ms) other = if name = other then v :: named ms other else named ms other := by
  by_cases h : name = other <;> simp [named, h]

theorem named_filter_ne (h : name ≠ s) (ms : List (String × Value)) :
    named (ms.filter (·.1 ≠ s)) name = named ms name := by
  rw [named, named, List.filter_filter]
  congr 1
  refine List.filter_congr fun m _ => ?_
  by_cases hm : m.1 = name <;> simp [hm, h]

theorem Field.exists_read_iff : (∃ d, f.read v = .ok d) ↔ f.type.Fits v := by
  obtain ⟨name, _ | _, absent⟩ := f <;> cases v <;> simp [Field.read, FieldType.Fits]

theorem exists_of_forall₂ {fs : List Field} (h : List.Forall₂ (FieldValue ms) fs data) (hf : f ∈ fs) :
    ∃ d, FieldValue ms f d := by
  induction h with
  | nil => cases hf
  | cons hd _ ih =>
    obtain rfl | hf := List.mem_cons.1 hf
    · exact ⟨_, hd⟩
    · exact ih hf

def Settles (f : Field) (found : Option Datum) (vs : List Value) (result : Option Datum) : Prop :=
  vs = [] ∧ result = found ∨ found = none ∧ ∃ v d, vs = [v] ∧ f.read v = .ok d ∧ result = some d

@[simp] theorem settles_nil {found o : Option Datum} : Settles f found [] o ↔ o = found := by
  simp [Settles]

theorem settles_cons {vs : List Value} {o : Option Datum} (h : f.read v = .ok d) :
    Settles f none (v :: vs) o ↔ Settles f (some d) vs o := by
  simp only [Settles, reduceCtorEq, false_and, or_false, false_or, true_and]
  constructor
  · rintro ⟨w, e, hw, he, rfl⟩
    cases hw
    exact ⟨rfl, by simp_all⟩
  · rintro ⟨rfl, rfl⟩
    exact ⟨v, d, rfl, h, rfl⟩

namespace Tag

variable {fields fs : List Field} {found result : List (String × Datum)}

theorem gather_iff (hfields : ∀ f ∈ fields, ∀ g ∈ fields, f.name = g.name → f = g)
    (o : Field → Option Datum) :
    (∃ result, gather fields found ms = .ok result ∧ ∀ f ∈ fields, result.lookup f.name = o f) ↔
      ∀ f ∈ fields, Settles f (found.lookup f.name) (named ms f.name) (o f) := by
  -- A member is of no field, of one that has a value already, or of a new one.
  fun_induction gather fields found ms with
  | case1 found => simp [eq_comm]
  | case2 found name v rest hnone ih =>
    rw [ih]
    refine forall₂_congr fun f hf => ?_
    rw [named_cons, if_neg]
    rintro rfl
    simpa using List.find?_eq_none.1 hnone f hf
  | case3 found name v rest g hg hdup =>
    obtain ⟨e, he⟩ := Option.isSome_iff_exists.1 hdup
    obtain rfl : g.name = name := by simpa using List.find?_some hg
    refine ⟨fun ⟨_, h, _⟩ => (nomatch h), fun h => ?_⟩
    have hsettles := h g (List.mem_of_find?_eq_some hg)
    simp [Settles, he] at hsettles
  | case4 found name v rest g hg hnew ih =>
    have hmem := List.mem_of_find?_eq_some hg
    obtain rfl : g.name = name := by simpa using List.find?_some hg
    have hnone : found.lookup g.name = none := Option.not_isSome_iff_eq_none.1 hnew
    rcases hread : g.read v with fault | d
    · refine ⟨fun ⟨_, h, _⟩ => (nomatch h), fun h => ?_⟩
      have hsettles := h g hmem
      simp only [named_cons, if_pos, Settles, reduceCtorEq, false_and, false_or] at hsettles
      obtain ⟨-, w, e, hw, he, -⟩ := hsettles
      rw [← (List.cons.inj hw).1, hread] at he
      cases he
    · refine (ih d).trans (forall₂_congr fun f hf => ?_)
      rw [named_cons, List.lookup_cons]
      by_cases hname : f.name = g.name
      · obtain rfl := hfields f hf g hmem hname
        simp only [beq_self_eq_true, if_pos, hnone, settles_cons hread]
      · rw [if_neg (Ne.symm hname), beq_eq_false_iff_ne.2 hname]

theorem complete_eq_ok (h : ∀ f ∈ fs, Settles f none (named ms f.name) (result.lookup f.name)) :
    complete result fs = .ok data ↔ List.Forall₂ (FieldValue ms) fs data := by
  induction fs generalizing data with
  | nil => cases data <;> simp [complete]
  | cons f fs ih =>
    simp only [List.mem_cons, forall_eq_or_imp] at h
    have hvalue : ∀ d, (result.lookup f.name).or f.absent = some d ↔ FieldValue ms f d := by
      intro d
      obtain ⟨hnone, hr⟩ | ⟨-, v, e, hv, he, hr⟩ := h.1
      · simp [FieldValue, hnone, hr]
      · simp [FieldValue, hv, he, hr]
    rw [complete, List.forall₂_cons_left_iff]
    constructor
    · intro hc
      split at hc
      next d hd =>
        obtain ⟨ds, hds, hc⟩ := Json.bind_eq_ok.1 hc
        cases hc
        exact ⟨d, ds, (hvalue d).1 hd, (ih h.2).1 hds, rfl⟩
      next => cases hc
    · rintro ⟨d, ds, hd, hds, rfl⟩
      simp only [(hvalue d).2 hd]
      exact Json.bind_eq_ok.2 ⟨ds, (ih h.2).2 hds, rfl⟩

theorem eq_of_name_eq (t : Tag) : ∀ f ∈ t.fields, ∀ g ∈ t.fields, f.name = g.name → f = g := by
  cases t <;> decide

theorem ofMembers_eq_ok (t : Tag) :
    t.ofMembers ms = .ok data ↔ List.Forall₂ (FieldValue ms) t.fields data := by
  constructor
  · intro h
    obtain ⟨result, hgather, hcomplete⟩ := Json.bind_eq_ok.1 h
    have hsettles :=
      (gather_iff t.eq_of_name_eq fun f => result.lookup f.name).1 ⟨result, hgather, fun _ _ => rfl⟩
    exact (complete_eq_ok hsettles).1 hcomplete
  · intro h
    let o : Field → Option Datum := fun f => (named ms f.name).head?.bind fun v => (f.read v).toOption
    obtain ⟨result, hgather, -⟩ : ∃ result, gather t.fields [] ms = .ok result ∧
        ∀ f ∈ t.fields, result.lookup f.name = o f := by
      refine (gather_iff t.eq_of_name_eq o).2 fun f hf => ?_
      obtain ⟨d, ⟨v, hv, hd⟩ | ⟨hv, -⟩⟩ := exists_of_forall₂ h hf
      · simp [Settles, o, hv, hd, Except.toOption]
      · simp [o, hv]
    have hsettles :=
      (gather_iff t.eq_of_name_eq fun f => result.lookup f.name).1 ⟨result, hgather, fun _ _ => rfl⟩
    exact Json.bind_eq_ok.2 ⟨result, hgather, (complete_eq_ok hsettles).2 h⟩

end Tag

theorem fieldValue_text {absent : Option Datum} : FieldValue ms ⟨name, .text, absent⟩ d ↔
    (∃ s, named ms name = [.string s] ∧ d = .text s) ∨ named ms name = [] ∧ absent = some d := by
  refine or_congr_left ⟨fun ⟨v, hv, hd⟩ => ?_, fun ⟨s, hv, hd⟩ => ⟨.string s, hv, hd ▸ rfl⟩⟩
  cases v with
  | string s => exact ⟨s, hv, (Except.ok.inj hd).symm⟩
  | _ => cases hd

theorem fieldValue_flag {absent : Option Datum} : FieldValue ms ⟨name, .flag, absent⟩ d ↔
    (∃ b, named ms name = [.bool b] ∧ d = .flag b) ∨ named ms name = [] ∧ absent = some d := by
  refine or_congr_left ⟨fun ⟨v, hv, hd⟩ => ?_, fun ⟨b, hv, hd⟩ => ⟨.bool b, hv, hd ▸ rfl⟩⟩
  cases v with
  | bool b => exact ⟨b, hv, (Except.ok.inj hd).symm⟩
  | _ => cases hd

theorem fieldValue_given {absent : String} :
    FieldValue ms ⟨name, .text, some (.text absent)⟩ d ↔ ∃ s, Given ms name absent s ∧ d = .text s := by
  rw [fieldValue_text]
  constructor
  · rintro (⟨s, hv, rfl⟩ | ⟨hv, hd⟩)
    · exact ⟨s, .inl hv, rfl⟩
    · exact ⟨absent, .inr ⟨hv, rfl⟩, (Option.some.inj hd).symm⟩
  · rintro ⟨s, hv | ⟨hv, rfl⟩, rfl⟩
    · exact .inl ⟨s, hv, rfl⟩
    · exact .inr ⟨hv, rfl⟩

theorem exists_denotes (ht : named ms tagName = [.string t.label])
    (hdata : List.Forall₂ (FieldValue ms) t.fields data) : ∃ r, t.build? data = some r ∧ Denotes ms r := by
  cases t with
  | newEndpoint =>
    obtain _ | ⟨he, _ | ⟨hi, ⟨⟩⟩⟩ := hdata
    obtain ⟨address, haddress, rfl⟩ | ⟨-, ⟨⟩⟩ := fieldValue_text.1 he
    obtain ⟨i, hgiven, rfl⟩ := fieldValue_given.1 hi
    exact ⟨_, rfl, .newEndpoint ht haddress hgiven⟩
  | registrationFailed =>
    obtain _ | ⟨hi, ⟨⟩⟩ := hdata
    obtain ⟨i, hgiven, rfl⟩ := fieldValue_given.1 hi
    exact ⟨_, rfl, .registrationFailed ht hgiven⟩
  | unregistered =>
    obtain _ | ⟨hi, ⟨⟩⟩ := hdata
    obtain ⟨i, hgiven, rfl⟩ := fieldValue_given.1 hi
    exact ⟨_, rfl, .unregistered ht hgiven⟩
  | message =>
    obtain _ | ⟨hp, _ | ⟨hi, ⟨⟩⟩⟩ := hdata
    obtain ⟨payload, hpayload, rfl⟩ := fieldValue_given.1 hp
    obtain ⟨i, hgiven, rfl⟩ := fieldValue_given.1 hi
    exact ⟨_, rfl, .message ht hpayload hgiven⟩
  | retry =>
    obtain ⟨⟩ := hdata
    exact ⟨_, rfl, .retry ht⟩
  | airGapped =>
    obtain _ | ⟨he, ⟨⟩⟩ := hdata
    obtain ⟨b, henabled, rfl⟩ | ⟨-, ⟨⟩⟩ := fieldValue_flag.1 he
    exact ⟨_, rfl, .airGapped ht henabled⟩
  | quit =>
    obtain ⟨⟩ := hdata
    exact ⟨_, rfl, .quit ht⟩

theorem denotes_iff : Denotes ms r ↔ ∃ (t : Tag) (data : List Datum),
    named ms tagName = [.string t.label] ∧ List.Forall₂ (FieldValue ms) t.fields data ∧
      t.build? data = some r := by
  constructor
  · intro h
    cases h with
    | newEndpoint ht he hi =>
      exact ⟨.newEndpoint, _, ht, .cons (fieldValue_text.2 (.inl ⟨_, he, rfl⟩))
        (.cons (fieldValue_given.2 ⟨_, hi, rfl⟩) .nil), rfl⟩
    | registrationFailed ht hi =>
      exact ⟨.registrationFailed, _, ht, .cons (fieldValue_given.2 ⟨_, hi, rfl⟩) .nil, rfl⟩
    | unregistered ht hi => exact ⟨.unregistered, _, ht, .cons (fieldValue_given.2 ⟨_, hi, rfl⟩) .nil, rfl⟩
    | message ht hp hi =>
      exact ⟨.message, _, ht, .cons (fieldValue_given.2 ⟨_, hp, rfl⟩)
        (.cons (fieldValue_given.2 ⟨_, hi, rfl⟩) .nil), rfl⟩
    | retry ht => exact ⟨.retry, _, ht, .nil, rfl⟩
    | airGapped ht he => exact ⟨.airGapped, _, ht, .cons (fieldValue_flag.2 (.inl ⟨_, he, rfl⟩)) .nil, rfl⟩
    | quit ht => exact ⟨.quit, _, ht, .nil, rfl⟩
  · rintro ⟨t, data, ht, hdata, hr⟩
    obtain ⟨r', hr', h⟩ := exists_denotes ht hdata
    obtain rfl : r' = r := Option.some.inj (hr'.symm.trans hr)
    exact h

theorem Tag.label_injective {t u : Tag} (h : t.label = u.label) : t = u := by
  cases t <;> cases u <;> first | rfl | simp [label] at h

theorem Malformed.not_denotes (h : Malformed ms) : ¬ Denotes ms r := by
  intro hr
  obtain ⟨t, data, ht, hdata, -⟩ := denotes_iff.1 hr
  have hsame : ∀ {u : Tag}, named ms "event" = [.string u.label] → u = t := by
    intro u hu
    exact Tag.label_injective (by simpa using hu.symm.trans ht)
  cases h with
  | untagged h => exact absurd (h.symm.trans ht) (by simp)
  | retagged h =>
    rw [show named ms "event" = _ from ht] at h
    simp at h
  | unknown hv h =>
    rw [show named ms "event" = _ from ht] at hv
    exact h t (List.mem_singleton.1 hv)
  | lacking hu hf hneeded h =>
    obtain rfl := hsame hu
    obtain ⟨d, ⟨v, hv, -⟩ | ⟨-, hd⟩⟩ := exists_of_forall₂ hdata hf
    · simp [h] at hv
    · simp [hneeded] at hd
  | mistyped hu hf hv h =>
    obtain rfl := hsame hu
    obtain ⟨d, ⟨w, hw, hd⟩ | ⟨hnone, -⟩⟩ := exists_of_forall₂ hdata hf
    · rw [hw, List.mem_singleton] at hv
      exact h (Field.exists_read_iff.1 ⟨d, hv ▸ hd⟩)
    · simp [hnone] at hv
  | repeated hu hf h =>
    obtain rfl := hsame hu
    obtain ⟨d, ⟨v, hv, -⟩ | ⟨hnone, -⟩⟩ := exists_of_forall₂ hdata hf
    · simp [hv] at h
    · simp [hnone] at h

theorem exists_forall₂ {fs : List Field} (h : ∀ f ∈ fs, ∃ d, FieldValue ms f d) :
    ∃ data, List.Forall₂ (FieldValue ms) fs data := by
  induction fs with
  | nil => exact ⟨[], .nil⟩
  | cons f fs ih =>
    simp only [List.mem_cons, forall_eq_or_imp] at h
    obtain ⟨d, hd⟩ := h.1
    obtain ⟨data, hdata⟩ := ih h.2
    exact ⟨d :: data, .cons hd hdata⟩

theorem exists_denotes_of_not_malformed (h : ¬ Malformed ms) : ∃ r, Denotes ms r := by
  obtain ⟨t, ht⟩ : ∃ t : Tag, named ms "event" = [.string t.label] := by
    rcases htag : named ms "event" with _ | ⟨v, _ | ⟨w, vs⟩⟩
    · exact absurd (.untagged htag) h
    · refine Classical.byContradiction fun hnone =>
        h (.unknown (v := v) (by simp [htag]) fun t hv => hnone ⟨t, ?_⟩)
      rw [hv]
    · exact absurd (.retagged (by simp [htag])) h
  have hvalues : ∀ f ∈ t.fields, ∃ d, FieldValue ms f d := by
    intro f hf
    rcases hv : named ms f.name with _ | ⟨v, _ | ⟨w, vs⟩⟩
    · rcases habsent : f.absent with _ | d
      · exact absurd (.lacking ht hf habsent hv) h
      · exact ⟨d, .inr ⟨hv, habsent⟩⟩
    · obtain ⟨d, hd⟩ := Field.exists_read_iff.2 <| Classical.byContradiction fun hfits =>
        h (.mistyped ht hf (v := v) (by simp [hv]) hfits)
      exact ⟨d, .inl ⟨v, hv, hd⟩⟩
    · exact absurd (.repeated ht hf (by simp [hv])) h
  obtain ⟨data, hdata⟩ := exists_forall₂ hvalues
  obtain ⟨r, -, hr⟩ := exists_denotes ht hdata
  exact ⟨r, hr⟩

theorem malformed_iff : Malformed ms ↔ ∀ r, ¬ Denotes ms r :=
  ⟨fun h _ => h.not_denotes, fun h => Classical.byContradiction fun hm =>
    (exists_denotes_of_not_malformed hm).elim h⟩

end PushKeeper.Feed
