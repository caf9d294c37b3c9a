import Mathlib.Data.Nat.Digits.Defs
import Mathlib.Tactic.Ring
import PushKeeper.Proofs.Store.Operations

namespace PushKeeper

namespace Text.Numeral

structure Spelling where
  before : List Char
  plus : Bool
  digits : List Char
  after : List Char

namespace Spelling

def sign (s : Spelling) : List Char :=
  if s.plus then ['+'] else []

def text (s : Spelling) : List Char :=
  s.before ++ (s.sign ++ s.digits) ++ s.after

structure Proper (s : Spelling) : Prop where
  before : ∀ c ∈ s.before, isBlank c = true
  digits_ne_nil : s.digits ≠ []
  digits : ∀ c ∈ s.digits, c.isDigit = true
  after : ∀ c ∈ s.after, isBlank c = true

def value (s : Spelling) : Nat :=
  Nat.ofDigits 10 (s.digits.reverse.map fun c => c.toNat - '0'.toNat)

end Spelling

/-- The text is a numeral of the number. -/
def Denotes (text : String) (n : Nat) : Prop :=
  ∃ s : Spelling, s.Proper ∧ s.text = text.toList ∧ s.value = n

variable {c : Char} {cs : List Char} {text : String} {n m bound value : Nat}

theorem isDigit_iff : c.isDigit = true ↔ 48 ≤ c.toNat ∧ c.toNat ≤ 57 := by
  simp only [Char.isDigit, Bool.and_eq_true, decide_eq_true_eq, ge_iff_le, UInt32.le_iff_toNat_le]
  rfl

theorem digit?_eq (c : Char) : digit? c = if c.isDigit then some (c.toNat - '0'.toNat) else none := by
  simp only [isDigit_iff]
  rfl

theorem isBlank_of_isDigit (h : c.isDigit = true) : isBlank c = false := by
  have hd := isDigit_iff.1 h
  simp only [isBlank, UInt32.le_iff_toNat_le, ← UInt32.toNat_inj, UInt32.reduceToNat, Char.toNat_val,
    Bool.or_eq_false_iff, Bool.and_eq_false_imp, decide_eq_true_eq, decide_eq_false_iff_not,
    beq_eq_false_iff_ne, ne_eq]
  omega

theorem readDigits_eq_some_iff : readDigits value cs = some n ↔
    (∀ c ∈ cs, c.isDigit = true) ∧
      value * 10 ^ cs.length + Nat.ofDigits 10 (cs.reverse.map fun c => c.toNat - '0'.toNat) = n := by
  induction cs generalizing value with
  | nil => simp [readDigits]
  | cons c cs ih =>
    by_cases hc : c.isDigit = true
    · simp only [readDigits, digit?_eq, hc, if_true, Option.bind_eq_bind, Option.bind_some, ih,
        List.forall_mem_cons, true_and, List.reverse_cons, List.map_append, List.map_singleton,
        Nat.ofDigits_append, Nat.ofDigits_singleton, List.length_map, List.length_reverse,
        List.length_cons]
      refine and_congr_right fun _ => ?_
      ring_nf
    · simp [readDigits, digit?_eq, hc]

theorem ofChars?_eq_some_iff : ofChars? cs = some n ↔
    ∃ s : Spelling, s.Proper ∧ s.sign ++ s.digits = cs ∧ s.value = n := by
  have hread (plus : Bool) {d : Char} {ds : List Char} (h : readDigits 0 (d :: ds) = some n) :
      ∃ s : Spelling, s.Proper ∧ s.sign ++ s.digits = (if plus then ['+'] else []) ++ d :: ds ∧
        s.value = n := by
    obtain ⟨hds, hn⟩ := readDigits_eq_some_iff.1 h
    rw [Nat.zero_mul, Nat.zero_add] at hn
    exact ⟨⟨[], plus, d :: ds, []⟩, ⟨by simp, by simp, hds, by simp⟩, rfl, hn⟩
  constructor
  · intro h
    unfold ofChars? at h
    split at h
    · cases h
    · cases h
    · exact hread true h
    · exact hread false h
  · rintro ⟨⟨before, plus, ds, after⟩, ⟨-, hne, hds, -⟩, rfl, rfl⟩
    have hvalue : readDigits 0 ds = some (Spelling.mk before plus ds after).value :=
      readDigits_eq_some_iff.2 ⟨hds, by simp [Spelling.value]⟩
    cases ds with
    | nil => exact absurd rfl hne
    | cons d ds =>
      cases plus with
      | true => exact hvalue
      | false =>
        have hd : d ≠ '+' := by
          rintro rfl
          exact absurd (hds '+' (by simp)) (by decide)
        exact (ofChars?_cons hd ds).trans hvalue

theorem Spelling.Proper.trimChars_text {s : Spelling} (h : s.Proper) :
    trimChars s.text = s.sign ++ s.digits := by
  have hcore : ∀ c ∈ s.sign ++ s.digits, isBlank c = false := by
    intro c hc
    obtain hc | hc := List.mem_append.1 hc
    · have hplus : s.sign ⊆ ['+'] := by
        rw [sign]
        split <;> simp
      obtain rfl := List.mem_singleton.1 (hplus hc)
      decide
    · exact isBlank_of_isDigit (h.digits c hc)
  refine trimChars_append h.before h.after ?_ ?_
  · exact fun c hc => hcore c (List.mem_of_mem_head? hc)
  · exact fun c hc => hcore c (List.mem_of_getLast? hc)

theorem parse?_eq_some_iff : parse? bound text = some n ↔ n < bound ∧ Denotes text n := by
  rw [parse?, Option.filter_eq_some_iff, ofChars?_eq_some_iff, decide_eq_true_eq, and_comm]
  refine and_congr_right fun _ => ?_
  constructor
  · rintro ⟨s, hs, hcore, hn⟩
    obtain ⟨before, after, hb, ha, htext⟩ := exists_trimChars text.toList
    refine ⟨{ s with before, after }, ⟨hb, hs.digits_ne_nil, hs.digits, ha⟩, ?_, hn⟩
    rw [htext, ← hcore]
    rfl
  · rintro ⟨s, hs, htext, hn⟩
    exact ⟨s, hs, by rw [← htext, hs.trimChars_text], hn⟩

theorem parse?_eq_none_iff : parse? bound text = none ↔ ¬ ∃ n, n < bound ∧ Denotes text n := by
  simp only [Option.eq_none_iff_forall_ne_some, ← parse?_eq_some_iff, not_exists, ne_eq]

theorem Denotes.unique (hn : Denotes text n) (hm : Denotes text m) : n = m := by
  have hread {k : Nat} (hk : k < n + m + 1) (h : Denotes text k) : parse? (n + m + 1) text = some k :=
    parse?_eq_some_iff.2 ⟨hk, h⟩
  exact Option.some.inj ((hread (by omega) hn).symm.trans (hread (by omega) hm))

end Text.Numeral

namespace Store.Values

open Registration (Status)
open Text.Numeral (Denotes parse?_eq_some_iff parse?_eq_none_iff)

variable {raw : String} {n : Nat}

theorem ordinal_ofOrdinal (h : n ≤ 4) : (Status.ofOrdinal n).ordinal = n := by
  revert n
  decide

theorem statusOf_of_denotes (h : Denotes raw n) : statusOf (some raw) = .ofOrdinal n := by
  by_cases hn : n < ordinalBound
  · simp [statusOf, parse?_eq_some_iff.2 ⟨hn, h⟩]
  · have hnone : Text.Numeral.parse? ordinalBound raw = none :=
      parse?_eq_none_iff.2 fun ⟨m, hm, hd⟩ => hn (hd.unique h ▸ hm)
    have hbig : 5 ≤ n := le_trans (by decide) (Nat.not_lt.1 hn)
    simp [statusOf, hnone, Status.ofOrdinal_eq_initial hbig]

theorem statusOf_of_not_denotes (h : ¬ ∃ n, n ≤ 4 ∧ Denotes raw n) :
    statusOf (some raw) = .unconfigured := by
  by_cases hd : ∃ n, Denotes raw n
  · -- a numeral of no ordinal, whether or not the reader gets to its value
    obtain ⟨n, hn⟩ := hd
    have hbig : 5 ≤ n := Nat.not_le.1 fun hle => h ⟨n, hle, hn⟩
    rw [statusOf_of_denotes hn, Status.ofOrdinal_eq_initial hbig]
    rfl
  · have hnone : Text.Numeral.parse? ordinalBound raw = none :=
      parse?_eq_none_iff.2 fun ⟨n, _, hn⟩ => hd ⟨n, hn⟩
    simp [statusOf, hnone, Status.initial]

theorem timeOf_of_denotes (h : Denotes raw n) (hn : n < timeBound) : timeOf (some raw) = n := by
  simp [timeOf, parse?_eq_some_iff.2 ⟨hn, h⟩]

theorem timeOf_of_not_denotes (h : ¬ ∃ n, n < timeBound ∧ Denotes raw n) : timeOf (some raw) = 0 := by
  simp [timeOf, parse?_eq_none_iff.2 h]

/-- Whatever text a store holds where a number belongs, of whatever length:

* the status is the one whose ordinal the text denotes, and that of a new store if it denotes none;
* the time is the number that the text denotes, and zero if it denotes none below `2 ^ 64`;
* a time that was stored is read back, by whoever is allowed to read it. -/
theorem numerals_read_exactly {σ : Type} [KeyValueStore σ] [Honest σ] (s : σ) (raw : String) :
    (KeyValueStore.get statusKey s = .ok (some raw) →
      (∀ n, n ≤ 4 → Denotes raw n → ∃ x : Status, x.ordinal = n ∧ status s = .ok x) ∧
        ((¬ ∃ n, n ≤ 4 ∧ Denotes raw n) → status s = .ok .unconfigured)) ∧
      (KeyValueStore.get lastFetchKey s = .ok (some raw) →
        (∀ n, n < 2 ^ 64 → Denotes raw n → lastFetch s = .ok n) ∧
          ((¬ ∃ n, n < 2 ^ 64 ∧ Denotes raw n) → lastFetch s = .ok 0)) ∧
      ∀ time : UInt64, ((setLastFetch time.toNat).on s).1 = .ok () →
        ∀ (t : σ) (found : Option String),
          Honest.entries t = Honest.entries ((setLastFetch time.toNat).on s).2 →
          KeyValueStore.get lastFetchKey t = .ok found → lastFetch t = .ok time.toNat := by
  refine ⟨fun hget => ⟨fun n hn hd => ?_, fun hd => ?_⟩, fun hget => ⟨fun n hn hd => ?_, fun hd => ?_⟩, ?_⟩
  · refine ⟨.ofOrdinal n, ordinal_ofOrdinal hn, ?_⟩
    rw [Operation.status_eq_map, hget, Except.map, statusOf_of_denotes hd]
  · rw [Operation.status_eq_map, hget, Except.map, statusOf_of_not_denotes hd]
  · rw [Operation.lastFetch_eq_map, hget, Except.map, timeOf_of_denotes hd hn]
  · rw [Operation.lastFetch_eq_map, hget, Except.map, timeOf_of_not_denotes hd]
  · intro time hset t found ht hget
    have hentries : Honest.entries t = (Honest.entries s).insert lastFetchKey (Text.Numeral.render time.toNat) :=
      ht.trans (Honest.put_ok hset)
    have hfound : found = some (Text.Numeral.render time.toNat) := by
      rw [Honest.get_ok hget, hentries]
      simp
    have hread : Operation.Reads (.setLastFetch time) t :=
      Operation.reads_of_get (hget.trans (congrArg _ hfound))
    exact hread

/-- An ordinal with zeros in front of it and blanks around it, a text that is no numeral, and the last time. -/
theorem numerals_read_exactly_of_four :
    let s := Entries.ofList [(statusKey, " +004\n"), (lastFetchKey, "4e0")]
    let last : UInt64 := 18446744073709551615
    let later := ((setLastFetch last.toNat).on s).2
    (Denotes " +004\n" 4 ∧ ∃ x : Status, x.ordinal = 4 ∧ status s = .ok x) ∧
      ((¬ ∃ n, n < 2 ^ 64 ∧ Denotes "4e0" n) ∧ lastFetch s = .ok 0) ∧
      lastFetch later = .ok last.toNat := by
  intro s last later
  have hfour : Denotes " +004\n" 4 := by
    have hproper : (⟨[' '], true, ['0', '0', '4'], ['\n']⟩ : Text.Numeral.Spelling).Proper :=
      ⟨List.all_eq_true.1 rfl, List.cons_ne_nil _ _, List.all_eq_true.1 rfl, List.all_eq_true.1 rfl⟩
    exact ⟨_, hproper, rfl, rfl⟩
  have hnone : ¬ ∃ n, n < 2 ^ 64 ∧ Denotes "4e0" n := parse?_eq_none_iff.1 (by decide +kernel)
  have hstatus : s.get? statusKey = some " +004\n" := by decide +kernel
  have htime : s.get? lastFetchKey = some "4e0" := by decide +kernel
  refine ⟨⟨hfour, ?_⟩, ⟨hnone, ?_⟩, ?_⟩
  · exact ((numerals_read_exactly s _).1 (congrArg _ hstatus)).1 4 (by decide) hfour
  · exact ((numerals_read_exactly s _).2.1 (congrArg _ htime)).2 hnone
  · exact (numerals_read_exactly s "").2.2 last rfl later _ rfl rfl

end Store.Values

end PushKeeper
