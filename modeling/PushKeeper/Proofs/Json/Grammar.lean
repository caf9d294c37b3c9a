import Mathlib.Data.List.DropRight
import Mathlib.Data.List.TakeWhile
import PushKeeper.Proofs.Json.Numbers

namespace PushKeeper.Json

def Blanks (cs : List Char) : Prop :=
  ∀ c ∈ cs, isSpace c = true

mutual

/-- A text of a value in which containers nest at most so many levels deep. -/
inductive IsValue : Nat → Value → List Char → Prop
  | null {levels : Nat} : IsValue levels .null ['n', 'u', 'l', 'l']
  | true {levels : Nat} : IsValue levels (.bool true) ['t', 'r', 'u', 'e']
  | false {levels : Nat} : IsValue levels (.bool false) ['f', 'a', 'l', 's', 'e']
  | number {levels : Nat} {l : Literal} {v : Value} (hl : l.Proper) (hv : l.value? false = .ok v) :
      IsValue levels v l.text
  | negative {levels : Nat} {l : Literal} {v : Value} (hl : l.Proper) (hv : l.value? true = .ok v) :
      IsValue levels v ('-' :: l.text)
  | string {levels : Nat} {s : String} {text : List Char} (h : Text.Spells s.toList text) :
      IsValue levels (.string s) ('"' :: text ++ ['"'])
  | emptyArray {levels : Nat} {blanks : List Char} (hb : Blanks blanks) :
      IsValue (levels + 1) (.array []) ('[' :: blanks ++ [']'])
  | array {levels : Nat} {vs : List Value} {text : List Char} (h : IsElements levels vs text) :
      IsValue (levels + 1) (.array vs) ('[' :: text ++ [']'])
  | emptyObject {levels : Nat} {blanks : List Char} (hb : Blanks blanks) :
      IsValue (levels + 1) (.object []) ('\x7b' :: blanks ++ ['\x7d'])
  | object {levels : Nat} {ms : List (String × Value)} {text : List Char} (h : IsMembers levels ms text) :
      IsValue (levels + 1) (.object ms) ('\x7b' :: text ++ ['\x7d'])

inductive IsElement : Nat → Value → List Char → Prop
  | mk {levels : Nat} {v : Value} {before text after : List Char} (hb : Blanks before)
      (h : IsValue levels v text) (ha : Blanks after) : IsElement levels v (before ++ text ++ after)

inductive IsElements : Nat → List Value → List Char → Prop
  | last {levels : Nat} {v : Value} {text : List Char} (h : IsElement levels v text) :
      IsElements levels [v] text
  | cons {levels : Nat} {v : Value} {vs : List Value} {text more : List Char} (h : IsElement levels v text)
      (hmore : IsElements levels vs more) : IsElements levels (v :: vs) (text ++ ',' :: more)

inductive IsMember : Nat → String × Value → List Char → Prop
  | mk {levels : Nat} {name : String} {v : Value} {before spelled after text : List Char} (hb : Blanks before)
      (hn : Text.Spells name.toList spelled) (ha : Blanks after) (h : IsElement levels v text) :
      IsMember levels (name, v) (before ++ '"' :: spelled ++ '"' :: after ++ ':' :: text)

inductive IsMembers : Nat → List (String × Value) → List Char → Prop
  | last {levels : Nat} {m : String × Value} {text : List Char} (h : IsMember levels m text) :
      IsMembers levels [m] text
  | cons {levels : Nat} {m : String × Value} {ms : List (String × Value)} {text more : List Char}
      (h : IsMember levels m text) (hmore : IsMembers levels ms more) :
      IsMembers levels (m :: ms) (text ++ ',' :: more)

end

variable {levels fuel depth : Nat} {v : Value} {c close : Char} {blanks text cs rest : List Char}

theorem skipSpace_append (h : Blanks blanks) (cs : List Char) : skipSpace (blanks ++ cs) = skipSpace cs :=
  List.dropWhile_append_of_pos h

@[simp] theorem skipSpace_skipSpace (cs : List Char) : skipSpace (skipSpace cs) = skipSpace cs :=
  List.dropWhile_idempotent _ _

@[simp] theorem skipSpace_of_not (h : isSpace c = false) (cs : List Char) : skipSpace (c :: cs) = c :: cs := by
  simp [skipSpace, h]

theorem exists_blanks (cs : List Char) : ∃ blanks, Blanks blanks ∧ cs = blanks ++ skipSpace cs :=
  ⟨cs.takeWhile isSpace, fun _ => List.mem_takeWhile_imp, (List.takeWhile_append_dropWhile ..).symm⟩

theorem exists_blanks_of_skipSpace (h : skipSpace cs = c :: rest) :
    ∃ blanks, Blanks blanks ∧ cs = blanks ++ c :: rest :=
  h ▸ exists_blanks cs

theorem Blanks.nil : Blanks [] := by
  simp [Blanks]

theorem Blanks.append {more : List Char} (hb : Blanks blanks) (hm : Blanks more) : Blanks (blanks ++ more) :=
  fun c hc => (List.mem_append.1 hc).elim (hb c) (hm c)

/-! What stands between values. -/

theorem more_comma (h : Blanks blanks) (close : Char) (rest : List Char) :
    more close (blanks ++ ',' :: rest) = .ok (true, rest) := by
  simp [more, skipSpace_append h, isSpace]

theorem more_close (h : Blanks blanks) (hs : isSpace close = false) (hc : close ≠ ',') (rest : List Char) :
    more close (blanks ++ close :: rest) = .ok (false, rest) := by
  rw [more, skipSpace_append h, skipSpace_of_not hs]
  split
  next heq => exact absurd (List.cons.inj heq).1 hc
  next heq =>
    obtain ⟨rfl, rfl⟩ := List.cons.inj heq
    exact if_pos rfl
  next heq => cases heq

theorem exists_blanks_of_more {goesOn : Bool} (h : more close cs = .ok (goesOn, rest)) :
    ∃ blanks, Blanks blanks ∧ cs = blanks ++ (if goesOn then ',' else close) :: rest := by
  rw [more] at h
  split at h
  next heq =>
    cases h
    exact exists_blanks_of_skipSpace heq
  next heq =>
    split at h
    next hc =>
      cases h
      exact hc ▸ exists_blanks_of_skipSpace heq
    next => cases h
  next => cases h

theorem opened_close (h : Blanks blanks) (hs : isSpace close = false) (rest : List Char) :
    opened close (blanks ++ close :: rest) = (true, rest) := by
  rw [opened, skipSpace_append h, skipSpace_of_not hs]
  exact if_pos rfl

theorem opened_of_ne (hb : Blanks blanks) (hs : isSpace c = false) (hc : c ≠ close) (rest : List Char) :
    opened close (blanks ++ c :: rest) = (false, skipSpace (blanks ++ c :: rest)) := by
  rw [opened, skipSpace_append hb, skipSpace_of_not hs]
  exact if_neg hc

theorem opened_cases (close : Char) (cs : List Char) :
    (∃ blanks rest, Blanks blanks ∧ cs = blanks ++ close :: rest ∧ opened close cs = (true, rest)) ∨
      opened close cs = (false, skipSpace cs) := by
  rw [opened]
  split
  next c rest heq =>
    split
    next hc =>
      obtain ⟨blanks, hb, hcs⟩ := exists_blanks_of_skipSpace heq
      exact .inl ⟨blanks, rest, hb, hc ▸ hcs, rfl⟩
    next => exact .inr (by rw [heq])
  next heq => exact .inr (by rw [heq])

theorem colon_eq_ok : colon cs = .ok rest ↔ ∃ blanks, Blanks blanks ∧ cs = blanks ++ ':' :: rest := by
  constructor
  · intro h
    rw [colon] at h
    split at h
    next heq =>
      cases h
      exact exists_blanks_of_skipSpace heq
    next => cases h
  · rintro ⟨blanks, hb, rfl⟩
    simp [colon, skipSpace_append hb, isSpace]

theorem memberName_eq_ok {name : String} : memberName cs = .ok (name, rest) ↔
    ∃ blanks spelled, Blanks blanks ∧ Text.Spells name.toList spelled ∧
      cs = blanks ++ '"' :: spelled ++ '"' :: rest := by
  constructor
  · intro h
    rw [memberName] at h
    split at h
    next heq =>
      obtain ⟨blanks, hb, rfl⟩ := exists_blanks_of_skipSpace heq
      obtain ⟨spelled, rfl, hs⟩ := Text.string_eq_ok.1 h
      exact ⟨blanks, spelled, hb, hs, by simp⟩
    next => cases h
  · rintro ⟨blanks, spelled, hb, hs, rfl⟩
    rw [memberName, List.append_assoc, skipSpace_append hb, List.cons_append, skipSpace_of_not (by decide)]
    exact Text.string_eq_ok.2 ⟨spelled, rfl, hs⟩

theorem Ends.append (hb : Blanks blanks) (h : Ends rest) : Ends (blanks ++ rest) := by
  cases blanks with
  | nil => exact h
  | cons c blanks =>
    rintro _ ⟨⟩
    have hc : isSpace c = true := hb c (by simp)
    simp only [isSpace, Bool.or_eq_true, beq_iff_eq] at hc
    obtain ((rfl | rfl) | rfl) | rfl := hc <;> decide

theorem ends_cons (h : c ∈ [',', ']', '\x7d']) (rest : List Char) : Ends (c :: rest) := by
  rintro _ ⟨⟩
  revert h
  simp only [List.mem_cons, List.not_mem_nil, or_false]
  rintro (rfl | rfl | rfl) <;> decide

/-! What a value begins with. -/

def Begins (text : List Char) : Prop :=
  ∃ c tail, text = c :: tail ∧ isSpace c = false ∧ c ≠ ']' ∧ c ≠ '\x7d'

theorem Literal.Proper.exists_cons {l : Literal} (h : l.Proper) :
    ∃ c tail, l.text = c :: tail ∧ (Text.Numeral.digit? c).isSome := by
  obtain ⟨hne, hd⟩ := h.whole
  rcases hw : l.whole with _ | ⟨c, ds⟩
  · exact absurd hw hne
  · exact ⟨c, _, by rw [Literal.text, hw]; rfl, hd c (by simp [hw])⟩

theorem ne_of_isSome_digit? {c d : Char} (hc : (Text.Numeral.digit? c).isSome)
    (hd : Text.Numeral.digit? d = none) : c ≠ d := by
  rintro rfl
  simp [hd] at hc

theorem isSpace_of_isSome_digit? (h : (Text.Numeral.digit? c).isSome) : isSpace c = false := by
  have hne : ∀ {d}, Text.Numeral.digit? d = none → c ≠ d := ne_of_isSome_digit? h
  simp [isSpace, hne (d := ' ') (by decide), hne (d := '\n') (by decide), hne (d := '\t') (by decide),
    hne (d := '\r') (by decide)]

theorem IsValue.begins (h : IsValue levels v text) : Begins text := by
  cases h with
  | number hl hv =>
    obtain ⟨c, tail, htext, hc⟩ := hl.exists_cons
    exact ⟨c, tail, htext, isSpace_of_isSome_digit? hc, ne_of_isSome_digit? hc (by decide),
      ne_of_isSome_digit? hc (by decide)⟩
  | _ => exact ⟨_, _, rfl, by decide, by decide, by decide⟩

theorem IsElement.opened (h : IsElement levels v text) (rest : List Char) :
    opened ']' (text ++ rest) = (false, skipSpace (text ++ rest)) := by
  obtain ⟨hb, h, ha⟩ := h
  obtain ⟨c, tail, rfl, hs, hc, -⟩ := h.begins
  simpa using opened_of_ne hb hs hc _

theorem IsElements.opened {vs : List Value} (h : IsElements levels vs text) (rest : List Char) :
    Json.opened ']' (text ++ rest) = (false, skipSpace (text ++ rest)) := by
  cases h with
  | last h => exact h.opened rest
  | cons h hmore => simpa using h.opened _

theorem IsMember.opened {m : String × Value} (h : IsMember levels m text) (rest : List Char) :
    Json.opened '\x7d' (text ++ rest) = (false, skipSpace (text ++ rest)) := by
  obtain ⟨hb, hn, ha, h⟩ := h
  simpa using opened_of_ne hb (by decide) (by decide) _

theorem IsMembers.opened {ms : List (String × Value)} (h : IsMembers levels ms text) (rest : List Char) :
    Json.opened '\x7d' (text ++ rest) = (false, skipSpace (text ++ rest)) := by
  cases h with
  | last h => exact h.opened rest
  | cons h hmore => simpa using h.opened _

/-! Blanks in front are nothing. -/

theorem IsElement.exists_skipSpace (h : IsElement levels v text) :
    ∃ tail, IsElement levels v tail ∧ ∀ rest, skipSpace (text ++ rest) = tail ++ rest := by
  obtain ⟨hb, h, ha⟩ := h
  obtain ⟨c, tail, rfl, hs, -⟩ := h.begins
  refine ⟨_, .mk .nil h ha, fun rest => ?_⟩
  rw [List.append_assoc, List.append_assoc, skipSpace_append hb]
  simp [hs]

theorem IsElements.exists_skipSpace {vs : List Value} (h : IsElements levels vs text) :
    ∃ tail, IsElements levels vs tail ∧ ∀ rest, skipSpace (text ++ rest) = tail ++ rest := by
  cases h with
  | last h =>
    obtain ⟨tail, h, hskip⟩ := h.exists_skipSpace
    exact ⟨tail, .last h, hskip⟩
  | cons h hmore =>
    obtain ⟨tail, h, hskip⟩ := h.exists_skipSpace
    exact ⟨_, .cons h hmore, fun rest => by simp [hskip]⟩

theorem IsMember.exists_skipSpace {m : String × Value} (h : IsMember levels m text) :
    ∃ tail, IsMember levels m tail ∧ ∀ rest, skipSpace (text ++ rest) = tail ++ rest := by
  obtain ⟨hb, hn, ha, h⟩ := h
  refine ⟨_, .mk .nil hn ha h, fun rest => ?_⟩
  simp only [List.append_assoc, skipSpace_append hb]
  exact skipSpace_of_not (by decide) _

theorem IsMembers.exists_skipSpace {ms : List (String × Value)} (h : IsMembers levels ms text) :
    ∃ tail, IsMembers levels ms tail ∧ ∀ rest, skipSpace (text ++ rest) = tail ++ rest := by
  cases h with
  | last h =>
    obtain ⟨tail, h, hskip⟩ := h.exists_skipSpace
    exact ⟨tail, .last h, hskip⟩
  | cons h hmore =>
    obtain ⟨tail, h, hskip⟩ := h.exists_skipSpace
    exact ⟨_, .cons h hmore, fun rest => by simp [hskip]⟩

theorem valueWith_append (fuel depth : Nat) (hb : Blanks blanks) (cs : List Char) :
    valueWith fuel depth (blanks ++ cs) = valueWith fuel depth cs := by
  cases fuel with
  | zero => rfl
  | succ fuel => rw [valueWith, valueWith, skipSpace_append hb]

theorem itemsWith_skipSpace (fuel depth : Nat) (cs : List Char) :
    itemsWith fuel depth (skipSpace cs) = itemsWith fuel depth cs := by
  obtain ⟨blanks, hb, hcs⟩ := exists_blanks cs
  cases fuel with
  | zero => rfl
  | succ fuel =>
    conv_rhs => rw [hcs]
    rw [itemsWith, itemsWith, valueWith_append fuel depth hb]

theorem memberName_skipSpace (cs : List Char) : memberName (skipSpace cs) = memberName cs := by
  rw [memberName, memberName, skipSpace_skipSpace]

theorem membersWith_skipSpace (fuel depth : Nat) (cs : List Char) :
    membersWith fuel depth (skipSpace cs) = membersWith fuel depth cs := by
  cases fuel with
  | zero => rfl
  | succ fuel => rw [membersWith, membersWith, memberName_skipSpace]

theorem valueWith_digit (h : (Text.Numeral.digit? c).isSome) (fuel depth : Nat) (cs : List Char) :
    valueWith (fuel + 1) depth (c :: cs) = number false (c :: cs) := by
  rw [valueWith, skipSpace_of_not (isSpace_of_isSome_digit? h)]
  split <;> rename_i heq
  case h_8 => rfl
  all_goals exact absurd (List.cons.inj heq).1 (ne_of_isSome_digit? h (by decide))

theorem enter_succ (levels : Nat) : enter (levels + 1 + 1) = .ok (levels + 1) := by
  simp [enter]

theorem valueWith_array (fuel levels : Nat) (cs : List Char) :
    valueWith (fuel + 1) (levels + 1 + 1) ('[' :: cs) =
      match opened ']' cs with
      | (true, cs) => .ok (.array [], cs)
      | (false, cs) => do
        let (vs, cs) ← itemsWith fuel (levels + 1) cs
        return (.array vs, cs) := by
  rw [valueWith, skipSpace_of_not (by decide), enter_succ]
  rfl

theorem valueWith_object (fuel levels : Nat) (cs : List Char) :
    valueWith (fuel + 1) (levels + 1 + 1) ('\x7b' :: cs) =
      match opened '\x7d' cs with
      | (true, cs) => .ok (.object [], cs)
      | (false, cs) => do
        let (ms, cs) ← membersWith fuel (levels + 1) cs
        return (.object ms, cs) := by
  rw [valueWith, skipSpace_of_not (by decide), enter_succ]
  rfl

/-! What is a text of a value is read. -/

/-- With so much fuel, texts of values are read, whatever comes after them. -/
structure Reads (fuel : Nat) : Prop where
  value {levels : Nat} {v : Value} {text rest : List Char} : IsValue levels v text → Ends rest →
    2 * text.length ≤ fuel → valueWith fuel (levels + 1) (text ++ rest) = .ok (v, rest)
  items {levels : Nat} {vs : List Value} {text rest : List Char} : IsElements levels vs text →
    2 * text.length < fuel → itemsWith fuel (levels + 1) (text ++ ']' :: rest) = .ok (vs, rest)
  members {levels : Nat} {ms : List (String × Value)} {text rest : List Char} :
    IsMembers levels ms text → 2 * text.length < fuel →
      membersWith fuel (levels + 1) (text ++ '\x7d' :: rest) = .ok (ms, rest)

namespace Reads

theorem element (hf : Reads fuel) (h : IsElement levels v text) (hr : Ends rest)
    (hlength : 2 * text.length ≤ fuel) :
    ∃ after, Blanks after ∧ valueWith fuel (levels + 1) (text ++ rest) = .ok (v, after ++ rest) := by
  cases h with
  | @mk _ _ before text after hb h ha =>
    simp only [List.length_append] at hlength
    refine ⟨after, ha, ?_⟩
    rw [List.append_assoc, List.append_assoc, valueWith_append fuel _ hb]
    exact hf.value h (hr.append ha) (by omega)

theorem succ_value (hf : Reads fuel) (h : IsValue levels v text) (hr : Ends rest)
    (hlength : 2 * text.length ≤ fuel + 1) :
    valueWith (fuel + 1) (levels + 1) (text ++ rest) = .ok (v, rest) := by
  cases h with
  | null | true | false => simp [valueWith, isSpace, afterWord]
  | number hl hv =>
    obtain ⟨c, tail, htext, hc⟩ := hl.exists_cons
    have hnumber := Literal.number_text hl (Literal.stops_of_ends hr _) false
    rw [hv] at hnumber
    rw [htext, List.cons_append] at hnumber ⊢
    rw [valueWith_digit hc, hnumber]
    rfl
  | negative hl hv =>
    have hnumber := Literal.number_text hl (Literal.stops_of_ends hr _) true
    rw [hv] at hnumber
    rw [List.cons_append, valueWith, skipSpace_of_not (by decide)]
    exact hnumber
  | @string _ s spelled h =>
    rw [List.cons_append, List.cons_append, valueWith, skipSpace_of_not (by decide)]
    simp only [List.append_assoc]
    rw [show Text.string (spelled ++ (['"'] ++ rest)) = .ok (s, rest) from Text.string_eq_ok.2 ⟨_, rfl, h⟩]
    rfl
  | emptyArray hb =>
    rw [List.cons_append, List.cons_append, List.append_assoc, List.singleton_append, valueWith_array,
      opened_close hb (by decide)]
  | array h =>
    simp only [List.length_append, List.length_cons, List.length_nil] at hlength
    rw [List.cons_append, List.cons_append, List.append_assoc, List.singleton_append, valueWith_array,
      h.opened]
    simp only [itemsWith_skipSpace, hf.items h (by omega)]
    rfl
  | emptyObject hb =>
    rw [List.cons_append, List.cons_append, List.append_assoc, List.singleton_append, valueWith_object,
      opened_close hb (by decide)]
  | object h =>
    simp only [List.length_append, List.length_cons, List.length_nil] at hlength
    rw [List.cons_append, List.cons_append, List.append_assoc, List.singleton_append, valueWith_object,
      h.opened]
    simp only [membersWith_skipSpace, hf.members h (by omega)]
    rfl

theorem succ_items (hf : Reads fuel) {vs : List Value} (h : IsElements levels vs text)
    (hlength : 2 * text.length < fuel + 1) :
    itemsWith (fuel + 1) (levels + 1) (text ++ ']' :: rest) = .ok (vs, rest) := by
  rw [itemsWith]
  cases h with
  | last h =>
    obtain ⟨after, ha, hv⟩ := hf.element h (ends_cons (c := ']') (by decide) rest) (by omega)
    refine bind_eq_ok.2 ⟨_, hv, ?_⟩
    exact bind_eq_ok.2 ⟨_, more_close ha (by decide) (by decide) rest, rfl⟩
  | @cons _ v vs text tail h hmore =>
    simp only [List.length_append, List.length_cons] at hlength
    obtain ⟨after, ha, hv⟩ := hf.element h (ends_cons (c := ',') (by decide) (tail ++ ']' :: rest)) (by omega)
    rw [List.append_assoc]
    refine bind_eq_ok.2 ⟨_, hv, ?_⟩
    refine bind_eq_ok.2 ⟨_, more_comma ha _ _, ?_⟩
    exact bind_eq_ok.2 ⟨_, hf.items hmore (by omega), rfl⟩

theorem member (hf : Reads fuel) {m : String × Value} (h : IsMember levels m text) (hr : Ends rest)
    (hlength : 2 * text.length ≤ fuel) :
    ∃ tail inner after, memberName (text ++ rest) = .ok (m.1, tail) ∧ colon tail = .ok inner ∧ Blanks after ∧
      valueWith fuel (levels + 1) inner = .ok (m.2, after ++ rest) := by
  cases h with
  | @mk _ name v before spelled blanks text hb hn ha h =>
    simp only [List.length_append, List.length_cons] at hlength
    obtain ⟨after, hafter, hv⟩ := hf.element h hr (by omega)
    refine ⟨blanks ++ ':' :: (text ++ rest), text ++ rest, after, ?_, ?_, hafter, hv⟩
    · exact memberName_eq_ok.2 ⟨before, spelled, hb, hn, by simp⟩
    · exact colon_eq_ok.2 ⟨blanks, ha, rfl⟩

theorem succ_members (hf : Reads fuel) {ms : List (String × Value)} (h : IsMembers levels ms text)
    (hlength : 2 * text.length < fuel + 1) :
    membersWith (fuel + 1) (levels + 1) (text ++ '\x7d' :: rest) = .ok (ms, rest) := by
  rw [membersWith]
  cases h with
  | last h =>
    obtain ⟨tail, inner, after, hname, hcolon, ha, hv⟩ :=
      hf.member h (ends_cons (c := '\x7d') (by decide) rest) (by omega)
    refine bind_eq_ok.2 ⟨_, hname, bind_eq_ok.2 ⟨_, hcolon, bind_eq_ok.2 ⟨_, hv, ?_⟩⟩⟩
    exact bind_eq_ok.2 ⟨_, more_close ha (by decide) (by decide) rest, rfl⟩
  | @cons _ m ms text more h hmore =>
    simp only [List.length_append, List.length_cons] at hlength
    obtain ⟨tail, inner, after, hname, hcolon, ha, hv⟩ :=
      hf.member h (ends_cons (c := ',') (by decide) (more ++ '\x7d' :: rest)) (by omega)
    rw [List.append_assoc]
    refine bind_eq_ok.2 ⟨_, hname, bind_eq_ok.2 ⟨_, hcolon, bind_eq_ok.2 ⟨_, hv, ?_⟩⟩⟩
    refine bind_eq_ok.2 ⟨_, more_comma ha _ _, ?_⟩
    exact bind_eq_ok.2 ⟨_, hf.members hmore (by omega), rfl⟩

end Reads

theorem reads (fuel : Nat) : Reads fuel := by
  -- Each text is longer than what is in it, so that twice its length is enough for it and its elements.
  induction fuel with
  | zero =>
    refine ⟨fun h _ hlength => ?_, fun _ hlength => ?_, fun _ hlength => ?_⟩
    · obtain ⟨c, tail, rfl, -⟩ := h.begins
      simp at hlength
    · exact absurd hlength (Nat.not_lt_zero _)
    · exact absurd hlength (Nat.not_lt_zero _)
  | succ fuel ih => exact ⟨ih.succ_value, ih.succ_items, ih.succ_members⟩

theorem value_of_isValue (h : IsValue levels v text) (hb : Blanks blanks) (hr : Ends rest) :
    value (levels + 1) (blanks ++ text ++ rest) = .ok (v, rest) := by
  rw [value, List.append_assoc, valueWith_append _ _ hb]
  refine (reads _).value h hr ?_
  simp only [List.length_append]
  omega

/-! What is read is a text of a value. -/

theorem eq_append_of_afterWord {word : List Char} (h : afterWord word cs = .ok rest) : cs = word ++ rest := by
  fun_induction afterWord word cs with
  | case1 cs => simpa using h
  | case2 w ws cs ih => simpa using ih h
  | _ => cases h

theorem exists_of_enter (h : enter (levels + 1) = .ok depth) : ∃ n, levels = n + 1 ∧ depth = n + 1 := by
  rw [enter] at h
  split at h
  · cases h
  · cases h
    exact ⟨levels - 1, by omega, by omega⟩

theorem IsElement.append (hb : Blanks blanks) (h : IsElement levels v text) :
    IsElement levels v (blanks ++ text) := by
  obtain ⟨hbefore, h, ha⟩ := h
  simpa using IsElement.mk (hb.append hbefore) h ha

theorem IsElements.append {vs : List Value} (hb : Blanks blanks) (h : IsElements levels vs text) :
    IsElements levels vs (blanks ++ text) := by
  cases h with
  | last h => exact .last (h.append hb)
  | cons h hmore => simpa using IsElements.cons (h.append hb) hmore

theorem IsMember.append {m : String × Value} (hb : Blanks blanks) (h : IsMember levels m text) :
    IsMember levels m (blanks ++ text) := by
  obtain ⟨hbefore, hn, ha, h⟩ := h
  simpa using IsMember.mk (hb.append hbefore) hn ha h

theorem IsMembers.append {ms : List (String × Value)} (hb : Blanks blanks) (h : IsMembers levels ms text) :
    IsMembers levels ms (blanks ++ text) := by
  cases h with
  | last h => exact .last (h.append hb)
  | cons h hmore => simpa using IsMembers.cons (h.append hb) hmore

structure Takes (fuel : Nat) : Prop where
  value {levels : Nat} {v : Value} {cs rest : List Char} : valueWith fuel (levels + 1) cs = .ok (v, rest) →
    ∃ before text, Blanks before ∧ IsValue levels v text ∧ cs = before ++ text ++ rest
  items {levels : Nat} {vs : List Value} {cs rest : List Char} :
    itemsWith fuel (levels + 1) cs = .ok (vs, rest) →
      ∃ text, IsElements levels vs text ∧ cs = text ++ ']' :: rest
  members {levels : Nat} {ms : List (String × Value)} {cs rest : List Char} :
    membersWith fuel (levels + 1) cs = .ok (ms, rest) →
      ∃ text, IsMembers levels ms text ∧ cs = text ++ '\x7d' :: rest

namespace Takes

theorem succ_value (hf : Takes fuel) (h : valueWith (fuel + 1) (levels + 1) cs = .ok (v, rest)) :
    ∃ before text, Blanks before ∧ IsValue levels v text ∧ cs = before ++ text ++ rest := by
  obtain ⟨before, hb, hcs⟩ := exists_blanks cs
  suffices htext : ∃ text, IsValue levels v text ∧ skipSpace cs = text ++ rest by
    obtain ⟨text, hv, htext⟩ := htext
    exact ⟨before, text, hb, hv, by rw [List.append_assoc, ← htext, ← hcs]⟩
  rw [valueWith] at h
  split at h <;> rename_i heq
  -- the three words
  · obtain ⟨left, hword, h⟩ := bind_eq_ok.1 h
    cases h
    exact ⟨_, .null, by rw [heq, eq_append_of_afterWord hword]; rfl⟩
  · obtain ⟨left, hword, h⟩ := bind_eq_ok.1 h
    cases h
    exact ⟨_, .true, by rw [heq, eq_append_of_afterWord hword]; rfl⟩
  · obtain ⟨left, hword, h⟩ := bind_eq_ok.1 h
    cases h
    exact ⟨_, .false, by rw [heq, eq_append_of_afterWord hword]; rfl⟩
  · obtain ⟨⟨s, left⟩, hstring, h⟩ := bind_eq_ok.1 h
    cases h
    obtain ⟨spelled, rfl, hs⟩ := Text.string_eq_ok.1 hstring
    exact ⟨_, .string hs, by simp [heq]⟩
  -- the two containers, which may be empty
  · next tail =>
    obtain ⟨depth, henter, h⟩ := bind_eq_ok.1 h
    obtain ⟨n, rfl, rfl⟩ := exists_of_enter henter
    obtain ⟨blanks, left, hblanks, rfl, hopen⟩ | hopen := opened_cases ']' tail <;>
      simp only [hopen] at h
    · cases h
      exact ⟨_, .emptyArray hblanks, by simp [heq]⟩
    · obtain ⟨⟨vs, left⟩, hitems, h⟩ := bind_eq_ok.1 h
      cases h
      rw [itemsWith_skipSpace] at hitems
      obtain ⟨text, hvs, rfl⟩ := hf.items hitems
      exact ⟨_, .array hvs, by simp [heq]⟩
  · next tail =>
    obtain ⟨depth, henter, h⟩ := bind_eq_ok.1 h
    obtain ⟨n, rfl, rfl⟩ := exists_of_enter henter
    obtain ⟨blanks, left, hblanks, rfl, hopen⟩ | hopen := opened_cases '\x7d' tail <;>
      simp only [hopen] at h
    · cases h
      exact ⟨_, .emptyObject hblanks, by simp [heq]⟩
    · obtain ⟨⟨ms, left⟩, hmembers, h⟩ := bind_eq_ok.1 h
      cases h
      rw [membersWith_skipSpace] at hmembers
      obtain ⟨text, hms, rfl⟩ := hf.members hmembers
      exact ⟨_, .object hms, by simp [heq]⟩
  -- numbers, with a sign and without
  · obtain ⟨l, rfl, hl, hv⟩ := Literal.exists_of_number h
    exact ⟨_, .negative hl hv, by simp [heq]⟩
  · obtain ⟨l, htext, hl, hv⟩ := Literal.exists_of_number h
    exact ⟨_, .number hl hv, htext⟩

theorem element (hf : Takes fuel) {left : List Char} {goesOn : Bool}
    (h : valueWith fuel (levels + 1) cs = .ok (v, left)) (hmore : more close left = .ok (goesOn, rest)) :
    ∃ text, IsElement levels v text ∧ cs = text ++ (if goesOn then ',' else close) :: rest := by
  obtain ⟨before, text, hb, hv, rfl⟩ := hf.value h
  obtain ⟨after, ha, rfl⟩ := exists_blanks_of_more hmore
  exact ⟨_, .mk hb hv ha, by simp⟩

theorem succ_items (hf : Takes fuel) {vs : List Value}
    (h : itemsWith (fuel + 1) (levels + 1) cs = .ok (vs, rest)) :
    ∃ text, IsElements levels vs text ∧ cs = text ++ ']' :: rest := by
  rw [itemsWith] at h
  obtain ⟨⟨v, left⟩, hv, h⟩ := bind_eq_ok.1 h
  obtain ⟨⟨goesOn, left⟩, hmore, hend⟩ := bind_eq_ok.1 h
  obtain ⟨text, helement, rfl⟩ := hf.element hv hmore
  cases goesOn with
  | true =>
    obtain ⟨⟨vs, left⟩, hitems, hend⟩ := bind_eq_ok.1 hend
    cases hend
    obtain ⟨tail, hvs, rfl⟩ := hf.items hitems
    exact ⟨_, .cons helement hvs, by simp⟩
  | false =>
    cases hend
    exact ⟨text, .last helement, by simp⟩

theorem member (hf : Takes fuel) {name : String} {tail inner left : List Char} {goesOn : Bool}
    (hname : memberName cs = .ok (name, tail)) (hcolon : colon tail = .ok inner)
    (h : valueWith fuel (levels + 1) inner = .ok (v, left)) (hmore : more close left = .ok (goesOn, rest)) :
    ∃ text, IsMember levels (name, v) text ∧ cs = text ++ (if goesOn then ',' else close) :: rest := by
  obtain ⟨before, spelled, hb, hs, rfl⟩ := memberName_eq_ok.1 hname
  obtain ⟨after, ha, rfl⟩ := colon_eq_ok.1 hcolon
  obtain ⟨text, helement, rfl⟩ := hf.element h hmore
  exact ⟨_, .mk hb hs ha helement, by simp⟩

theorem succ_members (hf : Takes fuel) {ms : List (String × Value)}
    (h : membersWith (fuel + 1) (levels + 1) cs = .ok (ms, rest)) :
    ∃ text, IsMembers levels ms text ∧ cs = text ++ '\x7d' :: rest := by
  rw [membersWith] at h
  obtain ⟨⟨name, tail⟩, hname, h⟩ := bind_eq_ok.1 h
  obtain ⟨inner, hcolon, h⟩ := bind_eq_ok.1 h
  obtain ⟨⟨v, left⟩, hv, h⟩ := bind_eq_ok.1 h
  obtain ⟨⟨goesOn, left⟩, hmore, hend⟩ := bind_eq_ok.1 h
  obtain ⟨text, hmember, rfl⟩ := hf.member hname hcolon hv hmore
  cases goesOn with
  | true =>
    obtain ⟨⟨ms, left⟩, hmembers, hend⟩ := bind_eq_ok.1 hend
    cases hend
    obtain ⟨tail, hms, rfl⟩ := hf.members hmembers
    exact ⟨_, .cons hmember hms, by simp⟩
  | false =>
    cases hend
    exact ⟨text, .last hmember, by simp⟩

end Takes

theorem takes (fuel : Nat) : Takes fuel := by
  induction fuel with
  | zero => exact ⟨fun h => (nomatch h), fun h => (nomatch h), fun h => (nomatch h)⟩
  | succ fuel ih => exact ⟨ih.succ_value, ih.succ_items, ih.succ_members⟩

theorem exists_isValue_of_value (h : value (levels + 1) cs = .ok (v, rest)) :
    ∃ before text, Blanks before ∧ IsValue levels v text ∧ cs = before ++ text ++ rest :=
  (takes _).value h

/-! Single values in a container. -/

theorem IsElement.exists_value (h : IsElement levels v text) (hr : Ends rest) :
    ∃ after, Blanks after ∧ value (levels + 1) (text ++ rest) = .ok (v, after ++ rest) :=
  (reads _).element h hr (by simp only [List.length_append]; omega)

theorem exists_isElement_of_value {left : List Char} {goesOn : Bool}
    (h : value (levels + 1) cs = .ok (v, left)) (hmore : more close left = .ok (goesOn, rest)) :
    ∃ text, IsElement levels v text ∧ cs = text ++ (if goesOn then ',' else close) :: rest :=
  (takes _).element h hmore

theorem readString_eq_ok {expected s : String} :
    readString expected cs = .ok (s, rest) ↔ memberName cs = .ok (s, rest) := by
  rw [readString, memberName]
  split
  next => rfl
  next => simp

theorem numberValue_eq_ok {negative : Bool} {significand dropped : Nat} {fraction : Option Nat}
    {shift : Option Int} (h : numberValue negative significand dropped fraction shift = .ok v) :
    (∃ n, v = .integer n) ∨ ∃ x, v = .floating x := by
  rw [numberValue] at h
  split at h
  next =>
    cases h
    rw [wholeValue]
    split
    · exact .inl ⟨_, rfl⟩
    split
    · exact .inl ⟨_, rfl⟩
    split <;> exact .inr ⟨_, rfl⟩
  next =>
    rw [floatingValue] at h
    split at h
    · cases h
      exact .inr ⟨_, rfl⟩
    · cases h

theorem Literal.exists_of_value? {l : Literal} {negative : Bool} (h : l.value? negative = .ok v) :
    (∃ n, v = .integer n) ∨ ∃ x, v = .floating x :=
  numberValue_eq_ok h

theorem IsValue.exists_spelled {s : String} (h : IsValue levels (.string s) text) :
    ∃ spelled, Text.Spells s.toList spelled ∧ text = '"' :: spelled ++ ['"'] := by
  cases h with
  | number hl hv | negative hl hv => simpa using Literal.exists_of_value? hv
  | string h => exact ⟨_, h, rfl⟩

theorem IsValue.exists_elements {vs : List Value} (h : IsValue (levels + 1) (.array vs) text) :
    ∃ inner, text = '[' :: inner ++ [']'] ∧ (vs = [] ∧ Blanks inner ∨ IsElements levels vs inner) := by
  cases h with
  | number hl hv | negative hl hv => simpa using Literal.exists_of_value? hv
  | emptyArray hb => exact ⟨_, rfl, .inl ⟨rfl, hb⟩⟩
  | array h => exact ⟨_, rfl, .inr h⟩

theorem IsValue.exists_members {ms : List (String × Value)} (h : IsValue (levels + 1) (.object ms) text) :
    ∃ inner, text = '\x7b' :: inner ++ ['\x7d'] ∧ (ms = [] ∧ Blanks inner ∨ IsMembers levels ms inner) := by
  cases h with
  | number hl hv | negative hl hv => simpa using Literal.exists_of_value? hv
  | emptyObject hb => exact ⟨_, rfl, .inl ⟨rfl, hb⟩⟩
  | object h => exact ⟨_, rfl, .inr h⟩

theorem IsElement.exists_readString {s : String} (h : IsElement levels (.string s) text) (expected : String)
    (rest : List Char) :
    ∃ after, Blanks after ∧ readString expected (text ++ rest) = .ok (s, after ++ rest) := by
  obtain ⟨hb, h, ha⟩ := h
  obtain ⟨spelled, hs, rfl⟩ := h.exists_spelled
  exact ⟨_, ha, readString_eq_ok.2 (memberName_eq_ok.2 ⟨_, spelled, hb, hs, by simp⟩)⟩

theorem exists_isElement_of_readString {expected s : String} {left : List Char} {goesOn : Bool}
    (h : readString expected cs = .ok (s, left)) (hmore : more close left = .ok (goesOn, rest))
    (levels : Nat) :
    ∃ text, IsElement levels (.string s) text ∧ cs = text ++ (if goesOn then ',' else close) :: rest := by
  obtain ⟨before, spelled, hb, hs, rfl⟩ := memberName_eq_ok.1 (readString_eq_ok.1 h)
  obtain ⟨after, ha, rfl⟩ := exists_blanks_of_more hmore
  exact ⟨_, .mk hb (.string hs) ha, by simp⟩

/-! Whole texts. -/

theorem finish_eq_ok : finish cs = .ok () ↔ Blanks cs := by
  simp [finish, Blanks, skipSpace]

theorem ends_nil : Ends [] := by
  simp [Ends]

theorem decode_eq_ok {s : String} : decode (value (levels + 1)) s = .ok v ↔ ∃ before text after,
    Blanks before ∧ IsValue levels v text ∧ Blanks after ∧ s.toList = before ++ text ++ after := by
  constructor
  · intro h
    obtain ⟨⟨w, rest⟩, hvalue, h⟩ := bind_eq_ok.1 h
    obtain ⟨u, hfinish, h⟩ := bind_eq_ok.1 h
    cases h
    obtain ⟨before, text, hb, hv, hs⟩ := exists_isValue_of_value hvalue
    exact ⟨before, text, rest, hb, hv, finish_eq_ok.1 hfinish, hs⟩
  · rintro ⟨before, text, after, hb, hv, ha, hs⟩
    have hends : Ends after := by simpa using ends_nil.append ha
    rw [decode, hs]
    exact bind_eq_ok.2 ⟨_, value_of_isValue hv hb hends, bind_eq_ok.2 ⟨_, finish_eq_ok.2 ha, rfl⟩⟩

theorem IsValue.unique {w : Value} (hv : IsValue levels v text) (hw : IsValue levels w text) : v = w := by
  have hread := (value_of_isValue hv .nil ends_nil).symm.trans (value_of_isValue hw .nil ends_nil)
  simpa using hread

end PushKeeper.Json
