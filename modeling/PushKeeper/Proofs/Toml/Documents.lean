import Mathlib.Data.List.Infix
import Mathlib.Data.List.Induction
import Mathlib.Data.List.Nodup
import PushKeeper.Toml.Document

namespace PushKeeper.Toml

inductive Value.Proper : Value → Prop
  | string {s} : Proper (.string s)
  | integer {n} (hlow : -(Int.pow 2 63) ≤ n) (hhigh : n < Int.pow 2 63) : Proper (.integer n)
  | floating {x} : Proper (.floating x)
  | infinite {negative} : Proper (.infinite negative)
  | nan : Proper .nan
  | boolean {b} : Proper (.boolean b)
  | datetime : Proper .datetime
  | array {items} (h : ∀ v ∈ items, Proper v) : Proper (.array items)
  | table {kind ms} (hnames : (ms.map Prod.fst).Nodup) (h : ∀ p ∈ ms, Proper p.2) :
    Proper (.table kind ms)
  | tables {elements} (h : ∀ ms ∈ elements, Proper (.table .opened ms)) : Proper (.tables elements)

/-- What TOML says of every document, as far as settings are concerned. -/
def Reads (parse : String → Option Members) : Prop :=
  ∀ text doc, parse text = some doc → (Value.table .opened doc).Proper

namespace Members

structure Proper (ms : Members) : Prop where
  names : (ms.map Prod.fst).Nodup
  values {name : String} {v : Value} : (name, v) ∈ ms → v.Proper

theorem proper_iff {kind : TableKind} {ms : Members} : (Value.table kind ms).Proper ↔ ms.Proper := by
  constructor
  · intro hv
    cases hv with
    | table hnames h => exact ⟨hnames, fun hv => h _ hv⟩
  · rintro ⟨hnames, h⟩
    exact .table hnames fun p hp => h hp

theorem proper_nil : Proper [] := ⟨List.nodup_nil, by simp⟩

variable {ms ms' : Members} {name : String} {v : Value}

theorem mem_of_get? (h : ms.get? name = some v) : (name, v) ∈ ms := by
  induction ms with
  | nil => cases h
  | cons p ms ih =>
    obtain ⟨n, w⟩ := p
    rw [get?, List.lookup_cons] at h
    split at h
    next heq =>
      obtain rfl : name = n := by simpa using heq
      obtain rfl : w = v := Option.some.inj h
      exact List.mem_cons_self
    next => exact List.mem_cons_of_mem _ (ih h)

theorem not_mem_names_of_get? (h : ms.get? name = none) : name ∉ ms.map Prod.fst := by
  intro hmem
  obtain ⟨⟨n, w⟩, hw, rfl⟩ := List.mem_map.1 hmem
  have hne := List.lookup_eq_none_iff.1 h _ hw
  simp at hne

namespace Proper

theorem get? (h : ms.Proper) (hv : ms.get? name = some v) : v.Proper :=
  h.values (mem_of_get? hv)

theorem append (h : ms.Proper) (hn : ms.get? name = none) (hv : v.Proper) :
    Proper (ms ++ [(name, v)]) where
  names := by
    rw [List.map_append, List.nodup_append]
    refine ⟨h.names, by simp, ?_⟩
    rintro n hmem m hm rfl
    obtain rfl : n = name := by simpa using hm
    exact not_mem_names_of_get? hn hmem
  values {n w} hw := by
    obtain hw | hw := List.mem_append.1 hw
    · exact h.values hw
    · obtain ⟨-, rfl⟩ : n = name ∧ w = v := by simpa using hw
      exact hv

theorem replace (h : ms.Proper) (hv : v.Proper) (name : String) : Proper (ms.replace name v) where
  names := by
    have hmap : (ms.replace name v).map Prod.fst = ms.map Prod.fst := by
      rw [Members.replace, List.map_map]
      refine List.map_congr_left fun p _ => ?_
      dsimp only [Function.comp]
      split <;> rfl
    exact hmap ▸ h.names
  values {n w} hw := by
    obtain ⟨⟨m, u⟩, hu, heq⟩ := List.mem_map.1 hw
    dsimp only at heq
    split at heq
    · cases heq
      exact hv
    · cases heq
      exact h.values hu

theorem add? (h : ms.Proper) (hv : v.Proper) (ha : ms.add? name v = some ms') : ms'.Proper := by
  rw [Members.add?] at ha
  split at ha
  · cases ha
  next hn =>
    cases ha
    exact h.append (by simpa using hn) hv

end Proper

theorem Proper.alter? {passage : Passage} {change : TableKind → Members → Option Members}
    (hchange : ∀ kind ms ms', Proper ms → change kind ms = some ms' → Proper ms') {path : List String}
    {kind : TableKind} (h : ms.Proper) (ha : Members.alter? passage change path kind ms = some ms') :
    ms'.Proper := by
  induction path generalizing kind ms ms' with
  | nil => exact hchange kind ms ms' h ha
  | cons name path ih =>
    rw [Members.alter?] at ha
    split at ha
    next hn =>
      obtain ⟨child, hc, ha⟩ := Option.bind_eq_some_iff.1 ha
      cases ha
      exact h.append hn (proper_iff.2 (ih proper_nil hc))
    next k child hn =>
      split at ha
      next =>
        obtain ⟨child', hc, ha⟩ := Option.bind_eq_some_iff.1 ha
        cases ha
        exact h.replace (proper_iff.2 (ih (proper_iff.1 (h.get? hn)) hc)) name
      next => cases ha
    next elements hn =>
      obtain ⟨child, hc, ha⟩ := Option.bind_eq_some_iff.1 ha
      cases ha
      have helements : ∀ ms ∈ elements, (Value.table .opened ms).Proper := by
        cases h.get? hn with
        | tables helements => exact helements
      have hlast : Proper (elements.getLastD []) := by
        cases elements using List.reverseRecOn with
        | nil => exact proper_nil
        | append_singleton elements last => simpa using proper_iff.1 (helements last (by simp))
      refine h.replace (.tables fun ms hms => ?_) name
      obtain hms | hms := List.mem_append.1 hms
      · exact helements ms (List.mem_of_mem_dropLast hms)
      · obtain rfl := List.mem_singleton.1 hms
        exact proper_iff.2 (ih hlast hc)
    next => cases ha

namespace Proper

variable {path : List String} {kind : TableKind}

theorem assign? (h : ms.Proper) (hv : v.Proper) (ha : Members.assign? path v kind ms = some ms') :
    ms'.Proper := by
  rw [Members.assign?] at ha
  split at ha
  next => cases ha
  next name before _ =>
    refine h.alter? (fun kind ms ms' hms hc => ?_) ha
    split at hc
    next => exact hms.add? hv hc
    next => cases hc

theorem openTable? (h : ms.Proper) (ha : Members.openTable? path ms = some ms') : ms'.Proper := by
  rw [Members.openTable?] at ha
  split at ha
  next => cases ha
  next name before _ =>
    refine h.alter? (fun kind ms ms' hms hc => ?_) ha
    split at hc
    next hn =>
      cases hc
      exact hms.append hn (proper_iff.2 proper_nil)
    next child hn =>
      cases hc
      exact hms.replace (proper_iff.2 (proper_iff.1 (hms.get? hn))) name
    next => cases hc

theorem openElement? (h : ms.Proper) (ha : Members.openElement? path ms = some ms') : ms'.Proper := by
  rw [Members.openElement?] at ha
  split at ha
  next => cases ha
  next name before _ =>
    refine h.alter? (fun kind ms ms' hms hc => ?_) ha
    split at hc
    next hn =>
      cases hc
      refine hms.append hn (.tables fun elements he => ?_)
      obtain rfl := List.mem_singleton.1 he
      exact proper_iff.2 proper_nil
    next elements hn =>
      cases hc
      refine hms.replace (.tables fun more hm => ?_) name
      obtain hm | hm := List.mem_append.1 hm
      · cases hms.get? hn with
        | tables helements => exact helements more hm
      · obtain rfl := List.mem_singleton.1 hm
        exact proper_iff.2 proper_nil
    next => cases hc

end Proper

theorem proper_ofPairs? {pairs : List (List String × Value)} (hpairs : ∀ p ∈ pairs, p.2.Proper)
    (ha : ofPairs? pairs = some ms) : ms.Proper := by
  have hfold : ∀ before after, Proper before →
      pairs.foldlM (fun ms (p : List String × Value) => assign? p.1 p.2 .opened ms) before = some after →
        Proper after := by
    clear ha
    induction pairs with
    | nil =>
      intro before after hbefore hafter
      cases hafter
      exact hbefore
    | cons p pairs ih =>
      intro before after hbefore hafter
      obtain ⟨mid, hmid, hrest⟩ := Option.bind_eq_some_iff.1 hafter
      refine ih (fun q hq => hpairs q (List.mem_cons_of_mem _ hq)) mid after ?_ hrest
      exact hbefore.assign? (hpairs p List.mem_cons_self) hmid
  exact hfold [] ms proper_nil ha

end Members

section

variable {v : Value} {cs rest : List Char}

theorem proper_fits? {n : Int} (h : fits? n = some v) : v.Proper := by
  rw [fits?] at h
  split at h
  next hn =>
    cases h
    exact .integer hn.1 hn.2
  next => cases h

theorem proper_basedInteger {base : Nat} (h : basedInteger base cs = some (v, rest)) : v.Proper := by
  obtain ⟨⟨ds, cs'⟩, -, h⟩ := Option.bind_eq_some_iff.1 h
  obtain ⟨w, hw, h⟩ := Option.bind_eq_some_iff.1 h
  cases h
  exact proper_fits? hw

theorem proper_integer (h : integer cs = some (v, rest)) : v.Proper := by
  unfold integer at h
  split at h
  · exact proper_basedInteger h
  · exact proper_basedInteger h
  · exact proper_basedInteger h
  · obtain ⟨⟨ds, cs'⟩, -, h⟩ := Option.bind_eq_some_iff.1 h
    obtain ⟨w, hw, h⟩ := Option.bind_eq_some_iff.1 h
    cases h
    exact proper_fits? hw

theorem proper_decimalValue {negative : Bool} {ds : List Nat} {exponent : Int}
    (h : decimalValue negative ds exponent = some v) : v.Proper := by
  unfold decimalValue at h
  dsimp only at h
  split at h
  · cases h
    exact .floating
  split at h
  · cases h
    exact .floating
  split at h
  · cases h
    exact .infinite
  · cases h

theorem proper_decimal (h : decimal cs = some (v, rest)) : v.Proper := by
  obtain ⟨⟨front, cs'⟩, -, h⟩ := Option.bind_eq_some_iff.1 h
  dsimp only at h
  split at h
  · obtain ⟨⟨back, cs''⟩, -, h⟩ := Option.bind_eq_some_iff.1 h
    obtain ⟨w, hw, h⟩ := Option.bind_eq_some_iff.1 h
    cases h
    exact proper_decimalValue hw
  · obtain ⟨⟨shift, cs''⟩, -, h⟩ := Option.bind_eq_some_iff.1 h
    obtain ⟨w, hw, h⟩ := Option.bind_eq_some_iff.1 h
    cases h
    exact proper_decimalValue hw

theorem proper_special (h : special cs = some (v, rest)) : v.Proper := by
  unfold special at h
  split at h
  · cases h
    exact .infinite
  · cases h
    exact .nan
  · cases h

theorem proper_datetime (h : datetime cs = some (v, rest)) : v.Proper := by
  unfold datetime at h
  split at h
  · cases h
    exact .datetime
  · obtain ⟨cs', -, h⟩ := Option.map_eq_some_iff.1 h
    cases h
    exact .datetime

theorem proper_number (h : number cs = some (v, rest)) : v.Proper := by
  simp only [number, Option.orElse_eq_orElse, Option.orElse_eq_or, Option.or_eq_some_iff] at h
  obtain h | ⟨-, h | ⟨-, h | ⟨-, h⟩⟩⟩ := h
  · exact proper_datetime h
  · exact proper_decimal h
  · exact proper_special h
  · exact proper_integer h

/-- With so much fuel only proper values are read. -/
structure ReadsProper (fuel : Nat) : Prop where
  value {depth cs v rest} : valueWith fuel depth cs = some (v, rest) → v.Proper
  items {depth cs items rest} : itemsWith fuel depth cs = some (items, rest) → ∀ v ∈ items, v.Proper
  pairs {depth cs pairs rest} : pairsWith fuel depth cs = some (pairs, rest) → ∀ p ∈ pairs, p.2.Proper

namespace ReadsProper

variable {fuel depth : Nat}

theorem succ_value (hf : ReadsProper fuel) (h : valueWith (fuel + 1) depth cs = some (v, rest)) : v.Proper := by
  unfold valueWith at h
  split at h
  next => cases h; exact .boolean
  next => cases h; exact .boolean
  next =>
    split at h
    next => cases h
    next =>
      obtain ⟨⟨items, cs'⟩, hi, h⟩ := Option.map_eq_some_iff.1 h
      cases h
      exact .array (hf.items hi)
  next =>
    split at h
    next => cases h
    next =>
      dsimp only at h
      split at h
      next =>
        obtain ⟨⟨pairs, cs'⟩, hp, h⟩ := Option.bind_eq_some_iff.1 h
        obtain ⟨ms, hms, h⟩ := Option.bind_eq_some_iff.1 h
        cases hp
        cases h
        exact Members.proper_iff.2 (Members.proper_ofPairs? (by simp) hms)
      next =>
        obtain ⟨⟨pairs, cs'⟩, hp, h⟩ := Option.bind_eq_some_iff.1 h
        obtain ⟨ms, hms, h⟩ := Option.bind_eq_some_iff.1 h
        cases h
        exact Members.proper_iff.2 (Members.proper_ofPairs? (hf.pairs hp) hms)
  next =>
    obtain ⟨⟨s, cs'⟩, -, h⟩ := Option.map_eq_some_iff.1 h
    cases h
    exact .string
  next =>
    obtain ⟨⟨s, cs'⟩, -, h⟩ := Option.map_eq_some_iff.1 h
    cases h
    exact .string
  next => exact proper_number h

theorem succ_items (hf : ReadsProper fuel) {items : List Value}
    (h : itemsWith (fuel + 1) depth cs = some (items, rest)) : ∀ v ∈ items, v.Proper := by
  rw [itemsWith] at h
  obtain ⟨start, -, h⟩ := Option.bind_eq_some_iff.1 h
  split at h
  next => cases h; simp
  next =>
    obtain ⟨⟨v, after⟩, hv, h⟩ := Option.bind_eq_some_iff.1 h
    obtain ⟨next, -, h⟩ := Option.bind_eq_some_iff.1 h
    split at h
    next =>
      obtain ⟨⟨vs, _⟩, hvs, h⟩ := Option.bind_eq_some_iff.1 h
      cases h
      exact List.forall_mem_cons.2 ⟨hf.value hv, hf.items hvs⟩
    next =>
      cases h
      exact List.forall_mem_singleton.2 (hf.value hv)
    next => cases h

theorem succ_pairs (hf : ReadsProper fuel) {pairs : List (List String × Value)}
    (h : pairsWith (fuel + 1) depth cs = some (pairs, rest)) : ∀ p ∈ pairs, p.2.Proper := by
  rw [pairsWith] at h
  obtain ⟨⟨path, start⟩, -, h⟩ := Option.bind_eq_some_iff.1 h
  dsimp only at h
  split at h
  next =>
    obtain ⟨⟨v, after⟩, hv, h⟩ := Option.bind_eq_some_iff.1 h
    dsimp only at h
    split at h
    next =>
      obtain ⟨⟨ps, _⟩, hps, h⟩ := Option.bind_eq_some_iff.1 h
      cases h
      exact List.forall_mem_cons.2 ⟨hf.value hv, hf.pairs hps⟩
    next =>
      cases h
      exact List.forall_mem_singleton.2 (hf.value hv)
    next => cases h
  next => cases h

end ReadsProper

theorem readsProper (fuel : Nat) : ReadsProper fuel := by
  induction fuel with
  | zero => constructor <;> intro depth cs _ _ h <;> simp [valueWith, itemsWith, pairsWith] at h
  | succ fuel ih => exact ⟨ih.succ_value, ih.succ_items, ih.succ_pairs⟩

theorem proper_value (h : value cs = some (v, rest)) : v.Proper :=
  (readsProper _).value h

theorem proper_line {path : List String} (h : line cs = some (some (.pair path v), rest)) :
    v.Proper := by
  unfold line at h
  split at h
  · obtain ⟨⟨path', cs'⟩, -, h⟩ := Option.bind_eq_some_iff.1 h
    split at h
    · obtain ⟨cs'', -, h⟩ := Option.bind_eq_some_iff.1 h
      cases h
    · cases h
  · obtain ⟨⟨path', cs'⟩, -, h⟩ := Option.bind_eq_some_iff.1 h
    split at h
    · obtain ⟨cs'', -, h⟩ := Option.bind_eq_some_iff.1 h
      cases h
    · cases h
  split at h
  · cases h
  obtain ⟨⟨path', cs'⟩, -, h⟩ := Option.bind_eq_some_iff.1 h
  dsimp only at h
  split at h
  · obtain ⟨⟨w, cs''⟩, hw, h⟩ := Option.bind_eq_some_iff.1 h
    obtain ⟨after, -, h⟩ := Option.bind_eq_some_iff.1 h
    cases h
    exact proper_value hw
  · cases h

theorem proper_linesWith {fuel : Nat} {ss : List Statement} (h : linesWith fuel cs = some ss)
    {path : List String} (hv : .pair path v ∈ ss) : v.Proper := by
  induction fuel generalizing cs ss with
  | zero => cases h
  | succ fuel ih =>
    rw [linesWith] at h
    split at h
    · cases h
      cases hv
    obtain ⟨⟨s, cs'⟩, hs, h⟩ := Option.bind_eq_some_iff.1 h
    obtain ⟨ss', hss, h⟩ := Option.bind_eq_some_iff.1 h
    cases h
    obtain hv | hv := List.mem_append.1 hv
    · obtain rfl := Option.mem_toList.1 hv
      exact proper_line hs
    · exact ih hss hv

end

theorem Draft.proper_add? {d d' : Draft} {s : Statement} (hd : d.root.Proper)
    (hs : ∀ path v, s = .pair path v → v.Proper) (h : d.add? s = some d') : d'.root.Proper := by
  cases s with
  | pair path v =>
    obtain ⟨root, hroot, h⟩ := Option.bind_eq_some_iff.1 h
    cases h
    exact hd.alter? (fun _ _ _ hms hc => hms.assign? (hs path v rfl) hc) hroot
  | header path =>
    obtain ⟨root, hroot, h⟩ := Option.bind_eq_some_iff.1 h
    cases h
    exact hd.openTable? hroot
  | element path =>
    obtain ⟨root, hroot, h⟩ := Option.bind_eq_some_iff.1 h
    cases h
    exact hd.openElement? hroot

theorem Draft.proper_foldlM {ss : List Statement} {d d' : Draft} (hd : d.root.Proper)
    (hs : ∀ path v, .pair path v ∈ ss → v.Proper) (h : ss.foldlM add? d = some d') :
    d'.root.Proper := by
  induction ss generalizing d with
  | nil =>
    cases h
    exact hd
  | cons s ss ih =>
    obtain ⟨mid, hmid, h⟩ := Option.bind_eq_some_iff.1 h
    refine ih (Draft.proper_add? hd (fun path v hv => ?_) hmid) (fun path v hv => ?_) h
    · exact hs path v (hv ▸ List.mem_cons_self)
    · exact hs path v (List.mem_cons_of_mem _ hv)

theorem reads_parse? : Reads parse? := by
  intro text doc h
  obtain ⟨ss, hss, h⟩ := Option.bind_eq_some_iff.1 h
  obtain ⟨d, hd, rfl⟩ := Option.map_eq_some_iff.1 h
  refine Members.proper_iff.2 (Draft.proper_foldlM Members.proper_nil (fun path v hv => ?_) hd)
  exact proper_linesWith hss hv

end PushKeeper.Toml
