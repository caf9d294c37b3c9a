import PushKeeper.Proofs.Json.Grammar
import PushKeeper.Json.Printer
import Mathlib.Algebra.Ring.Int.Defs

namespace PushKeeper.Json

open Text.Numeral (digit? digits)

inductive Printable : Nat → Value → Prop
  | null {levels : Nat} : Printable levels .null
  | bool {levels : Nat} (b : Bool) : Printable levels (.bool b)
  | integer {levels : Nat} {n : Int} (hlow : -(2 ^ 63) ≤ n) (hhigh : n < 2 ^ 64) :
      Printable levels (.integer n)
  | string {levels : Nat} (s : String) : Printable levels (.string s)
  | array {levels : Nat} {vs : List Value} (h : ∀ v ∈ vs, Printable levels v) :
      Printable (levels + 1) (.array vs)
  | object {levels : Nat} {ms : List (String × Value)} (h : ∀ m ∈ ms, Printable levels m.2) :
      Printable (levels + 1) (.object ms)

theorem le_of_readDigits {value n : Nat} {ds : List Char} (h : Text.Numeral.readDigits value ds = some n) :
    value ≤ n := by
  induction ds generalizing value with
  | nil => simp_all [Text.Numeral.readDigits]
  | cons c ds ih =>
    obtain ⟨d, -, h⟩ := Option.bind_eq_some_iff.1 h
    have := ih h
    omega

theorem addDigits_of_readDigits {value n : Nat} {ds : List Char}
    (h : Text.Numeral.readDigits value ds = some n) (hn : n < significandBound) (count : Nat) :
    addDigits value count ds = (n, count + ds.length, []) := by
  induction ds generalizing value count with
  | nil => simp_all [Text.Numeral.readDigits, addDigits]
  | cons c ds ih =>
    obtain ⟨d, hd, h⟩ := Option.bind_eq_some_iff.1 h
    have hfits : 10 * value + d < significandBound := Nat.lt_of_le_of_lt (le_of_readDigits h) hn
    simp [addDigits, hd, hfits, ih h, Nat.add_assoc, Nat.add_comm 1]

theorem isDigits_digits (n : Nat) : IsDigits (digits n) := by
  refine ⟨?_, fun c hc => ?_⟩
  · unfold digits
    split <;> simp
  · obtain ⟨d, hd, rfl⟩ := Text.Numeral.mem_digits hc
    simp [Text.Numeral.digit?_digitChar hd]

theorem head?_digits {n : Nat} (h : (digits n).head? = some '0') : digits n = ['0'] := by
  fun_induction digits n with
  | case1 n hn =>
    obtain h : Text.Numeral.digitChar n = '0' := by simpa using h
    rw [h]
  | case2 n hn ih =>
    rw [List.head?_append_of_ne_nil _ (isDigits_digits (n / 10)).1] at h
    have hread := Text.Numeral.readDigits_digits (n / 10)
    rw [ih h] at hread
    have hzero : 0 = n / 10 := Option.some.inj hread
    omega

theorem proper_digits (n : Nat) : Literal.Proper ⟨digits n, none, none⟩ where
  whole := isDigits_digits n
  zero := head?_digits
  fraction h := by cases h
  power h := by cases h

theorem value?_digits (negative : Bool) {n : Nat} (hn : n < significandBound) :
    Literal.value? negative ⟨digits n, none, none⟩ = .ok (wholeValue negative n) := by
  simp [Literal.value?, addDigits_of_readDigits (Text.Numeral.readDigits_digits n) hn, addDigits, numberValue]

theorem isValue_integer {levels : Nat} {n : Int} (hlow : -(2 ^ 63) ≤ n) (hhigh : n < 2 ^ 64) :
    IsValue levels (.integer n) (integerChars n) := by
  have hn : n.natAbs < significandBound := by
    simp only [significandBound, Nat.pow_eq]
    omega
  have htext : (⟨digits n.natAbs, none, none⟩ : Literal).text = digits n.natAbs := by simp [Literal.text]
  rw [integerChars, ← htext]
  split
  next hneg =>
    have hfits : 0 < n.natAbs ∧ n.natAbs ≤ 2 ^ 63 := by omega
    have hwhole : wholeValue true n.natAbs = .integer (-n.natAbs) := by
      rw [wholeValue, if_neg (by decide), if_pos]
      simp only [Bool.and_eq_true, decide_eq_true_eq]
      exact hfits
    have hsame : -(n.natAbs : Int) = n := by omega
    rw [hsame] at hwhole
    exact .negative (proper_digits _) (hwhole ▸ value?_digits true hn)
  next hneg =>
    have hwhole : wholeValue false n.natAbs = .integer n.natAbs := rfl
    have hsame : (n.natAbs : Int) = n := by omega
    rw [hsame] at hwhole
    exact .number (proper_digits _) (hwhole ▸ value?_digits false hn)

theorem isElement_of_isValue {levels : Nat} {v : Value} {text : List Char} (h : IsValue levels v text) :
    IsElement levels v text := by
  simpa using IsElement.mk .nil h .nil

theorem isElements_compact {levels : Nat} {vs : List Value} (hne : vs ≠ [])
    (h : ∀ v ∈ vs, IsValue levels v v.compact) : IsElements levels vs (commas (compactItems vs)) := by
  induction vs with
  | nil => exact absurd rfl hne
  | cons v vs ih =>
    simp only [List.mem_cons, forall_eq_or_imp] at h
    cases vs with
    | nil => exact .last (isElement_of_isValue h.1)
    | cons w vs => exact .cons (isElement_of_isValue h.1) (ih (by simp) h.2)

theorem isMember_compact {levels : Nat} (name : String) {v : Value} (h : IsValue levels v v.compact) :
    IsMember levels (name, v) (Text.quote name ++ ':' :: v.compact) := by
  simpa [Text.quote] using
    IsMember.mk .nil (Text.spells_flatMap_escape name.toList) .nil (isElement_of_isValue h)

theorem isMembers_compact {levels : Nat} {ms : List (String × Value)} (hne : ms ≠ [])
    (h : ∀ m ∈ ms, IsValue levels m.2 m.2.compact) : IsMembers levels ms (commas (compactMembers ms)) := by
  induction ms with
  | nil => exact absurd rfl hne
  | cons m ms ih =>
    obtain ⟨name, v⟩ := m
    simp only [List.mem_cons, forall_eq_or_imp] at h
    cases ms with
    | nil => exact .last (isMember_compact name h.1)
    | cons w ms => exact .cons (isMember_compact name h.1) (ih (by simp) h.2)

theorem isValue_compact {levels : Nat} {v : Value} (h : Printable levels v) : IsValue levels v v.compact := by
  induction h with
  | null => exact .null
  | bool b =>
    cases b with
    | true => exact .true
    | false => exact .false
  | integer hlow hhigh => exact isValue_integer hlow hhigh
  | string s => exact .string (Text.spells_flatMap_escape s.toList)
  | @array levels vs h ih =>
    cases vs with
    | nil => exact .emptyArray .nil
    | cons v vs => exact .array (isElements_compact (by simp) ih)
  | @object levels ms h ih =>
    cases ms with
    | nil => exact .emptyObject .nil
    | cons m ms => exact .object (isMembers_compact (by simp) ih)

theorem decode_compact {levels : Nat} {v : Value} (h : Printable levels v) {s : String} {after : List Char}
    (hs : s.toList = v.compact ++ after) (ha : Blanks after) : decode (value (levels + 1)) s = .ok v :=
  decode_eq_ok.2 ⟨[], _, after, .nil, isValue_compact h, ha, by simpa using hs⟩

theorem not_control_of_escaped? {e c : Char} (h : Text.escaped? e = some c) : ¬ e.toNat < 0x20 := by
  unfold Text.escaped? at h
  split at h <;> first | decide | cases h

theorem not_control_of_mem_quote {c : Char} {s : String} (h : c ∈ Text.quote s) : ¬ c.toNat < 0x20 := by
  have hescape : ∀ d, c ∈ Text.escape d → ¬ c.toNat < 0x20 := by
    intro d hd
    obtain ⟨e, he, hc⟩ | ⟨hc, he⟩ | ⟨-, -, hc, he⟩ := Text.escape_cases d
    · rw [he] at hd
      obtain rfl | rfl : c = '\\' ∨ c = e := by simpa using hd
      · decide
      · exact not_control_of_escaped? hc
    · have hhex : ∀ n < 16, ¬ (Text.Quoted.hexDigit n).toNat < 0x20 := by decide
      simp only [he, List.mem_cons, List.not_mem_nil, or_false] at hd
      obtain rfl | rfl | rfl | rfl | rfl | rfl := hd
      · decide
      · decide
      · decide
      · decide
      · exact hhex _ (by omega)
      · exact hhex _ (Nat.mod_lt _ (by decide))
    · rw [he, List.mem_singleton] at hd
      exact hd ▸ hc
  simp only [Text.quote, List.cons_append, List.mem_cons, List.mem_append, List.mem_flatMap, List.not_mem_nil,
    or_false] at h
  obtain rfl | ⟨d, -, hd⟩ | rfl := h
  · decide
  · exact hescape d hd
  · decide

theorem mem_commas {c : Char} {texts : List (List Char)} (h : c ∈ commas texts) :
    c = ',' ∨ ∃ text ∈ texts, c ∈ text := by
  fun_induction commas texts with
  | case1 => simp at h
  | case2 text => exact .inr ⟨text, by simp, h⟩
  | case3 text rest _ ih =>
    simp only [List.mem_append, List.mem_cons] at h
    obtain h | h | h := h
    · exact .inr ⟨text, by simp, h⟩
    · exact .inl h
    · exact (ih h).imp_right fun ⟨t, ht, hc⟩ => ⟨t, List.mem_cons_of_mem _ ht, hc⟩

theorem compactItems_eq (vs : List Value) : compactItems vs = vs.map Value.compact := by
  induction vs with
  | nil => rfl
  | cons v vs ih => rw [compactItems, ih, List.map_cons]

theorem compactMembers_eq (ms : List (String × Value)) :
    compactMembers ms = ms.map fun m => Text.quote m.1 ++ ':' :: m.2.compact := by
  induction ms with
  | nil => rfl
  | cons m ms ih =>
    obtain ⟨name, v⟩ := m
    rw [compactMembers, ih, List.map_cons]

theorem not_control_of_mem_digits {c : Char} {n : Nat} (h : c ∈ digits n) : ¬ c.toNat < 0x20 := by
  have hdigit : ∀ d < 10, ¬ (Text.Numeral.digitChar d).toNat < 0x20 := by decide
  obtain ⟨d, hd, rfl⟩ := Text.Numeral.mem_digits h
  exact hdigit d hd

theorem not_control_of_mem_integerChars {c : Char} {n : Int} (h : c ∈ integerChars n) : ¬ c.toNat < 0x20 := by
  rw [integerChars] at h
  split at h
  · obtain rfl | h := List.mem_cons.1 h
    · decide
    · exact not_control_of_mem_digits h
  · exact not_control_of_mem_digits h

theorem not_control_of_mem_container {c start close : Char} {texts : List (List Char)}
    (h : c ∈ start :: commas texts ++ [close]) (hstart : ¬ start.toNat < 0x20) (hclose : ¬ close.toNat < 0x20)
    (htexts : ∀ text ∈ texts, c ∈ text → ¬ c.toNat < 0x20) : ¬ c.toNat < 0x20 := by
  simp only [List.cons_append, List.mem_cons, List.mem_append, List.not_mem_nil, or_false] at h
  obtain rfl | h | rfl := h
  · exact hstart
  · obtain rfl | ⟨text, ht, hc⟩ := mem_commas h
    · decide
    · exact htexts text ht hc
  · exact hclose

theorem not_control_of_all {c : Char} {text : List Char}
    (h : text.all (fun c => !decide (c.toNat < 0x20)) = true) (hc : c ∈ text) : ¬ c.toNat < 0x20 := by
  simpa using List.all_eq_true.1 h c hc

theorem not_control_of_mem_compact {levels : Nat} {v : Value} (hv : Printable levels v) {c : Char}
    (h : c ∈ v.compact) : ¬ c.toNat < 0x20 := by
  induction hv with
  | null => exact not_control_of_all rfl h
  | bool b => cases b <;> exact not_control_of_all rfl h
  | integer => exact not_control_of_mem_integerChars h
  | string s => exact not_control_of_mem_quote h
  | array hvs ih =>
    refine not_control_of_mem_container h (by decide) (by decide) fun text ht hc => ?_
    rw [compactItems_eq] at ht
    obtain ⟨v, hv, rfl⟩ := List.mem_map.1 ht
    exact ih v hv hc
  | object hms ih =>
    refine not_control_of_mem_container h (by decide) (by decide) fun text ht hc => ?_
    rw [compactMembers_eq] at ht
    obtain ⟨m, hm, rfl⟩ := List.mem_map.1 ht
    obtain hc | hc := List.mem_append.1 hc
    · exact not_control_of_mem_quote hc
    obtain rfl | hc := List.mem_cons.1 hc
    · decide
    · exact ih m hm hc

end PushKeeper.Json
