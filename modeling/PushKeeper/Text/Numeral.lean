import PushKeeper.Text.Blank

namespace PushKeeper.Text.Numeral

def digitChar (d : Nat) : Char :=
  Char.ofNat (48 + d)

def digit? (c : Char) : Option Nat :=
  if 48 ≤ c.toNat ∧ c.toNat ≤ 57 then some (c.toNat - 48) else none

def digits (n : Nat) : List Char :=
  if n < 10 then [digitChar n] else digits (n / 10) ++ [digitChar (n % 10)]
termination_by n
decreasing_by omega

def render (n : Nat) : String :=
  String.ofList (digits n)

def readDigits (value : Nat) : List Char → Option Nat
  | [] => some value
  | c :: cs => do readDigits (10 * value + (← digit? c)) cs

def ofChars? : List Char → Option Nat
  | [] => none
  | ['+'] => none
  | '+' :: c :: cs => readDigits 0 (c :: cs)
  | c :: cs => readDigits 0 (c :: cs)

def parse? (bound : Nat) (s : String) : Option Nat :=
  (ofChars? (trimChars s.toList)).filter (· < bound)

theorem digit?_digitChar {d : Nat} (h : d < 10) : digit? (digitChar d) = some d := by
  revert d
  decide

theorem isBlank_digitChar {d : Nat} (h : d < 10) : isBlank (digitChar d) = false := by
  revert d
  decide

theorem digitChar_ne_plus {d : Nat} (h : d < 10) : digitChar d ≠ '+' := by
  revert d
  decide

theorem mem_digits {n : Nat} {c : Char} (h : c ∈ digits n) : ∃ d, d < 10 ∧ c = digitChar d := by
  fun_induction digits n with
  | case1 n hn => exact ⟨n, hn, by simpa using h⟩
  | case2 n hn ih =>
    obtain h | h := List.mem_append.1 h
    · exact ih h
    · exact ⟨n % 10, Nat.mod_lt n (by decide), by simpa using h⟩

theorem readDigits_concat (value : Nat) (cs : List Char) (c : Char) :
    readDigits value (cs ++ [c]) = do
      let value ← readDigits value cs
      return 10 * value + (← digit? c) := by
  induction cs generalizing value with
  | nil => cases h : digit? c <;> simp [readDigits, h]
  | cons d cs ih => cases h : digit? d <;> simp [readDigits, h, ih]

theorem readDigits_digits (n : Nat) : readDigits 0 (digits n) = some n := by
  fun_induction digits n with
  | case1 n hn => simp [readDigits, digit?_digitChar hn]
  | case2 n hn ih =>
    rw [readDigits_concat, ih, digit?_digitChar (Nat.mod_lt n (by decide))]
    simp
    omega

theorem ofChars?_cons {c : Char} (h : c ≠ '+') (cs : List Char) :
    ofChars? (c :: cs) = readDigits 0 (c :: cs) := by
  unfold ofChars?
  split <;> simp_all

theorem ofChars?_digits (n : Nat) : ofChars? (digits n) = some n := by
  have hread := readDigits_digits n
  have hmem : ∀ c ∈ digits n, ∃ d, d < 10 ∧ c = digitChar d := fun c => mem_digits
  cases hd : digits n with
  | nil =>
    have : digits n ≠ [] := by
      unfold digits
      split <;> simp
    exact absurd hd this
  | cons c cs =>
    obtain ⟨d, hd10, rfl⟩ := hmem c (by simp [hd])
    rw [ofChars?_cons (digitChar_ne_plus hd10), ← hd, hread]

theorem parse?_render {bound n : Nat} (h : n < bound) : parse? bound (render n) = some n := by
  have htrim : trimChars (digits n) = digits n := by
    refine trimChars_of_forall fun c hc => ?_
    obtain ⟨d, hd, rfl⟩ := mem_digits hc
    exact isBlank_digitChar hd
  simp [parse?, render, htrim, ofChars?_digits, h]

theorem lt_of_parse? {bound n : Nat} {s : String} (h : parse? bound s = some n) : n < bound := by
  simpa using (Option.filter_eq_some_iff.1 h).2

end PushKeeper.Text.Numeral
