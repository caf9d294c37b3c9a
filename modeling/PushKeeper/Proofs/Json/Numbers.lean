import PushKeeper.Proofs.Json.Strings

namespace PushKeeper.Json

open Text.Numeral (digit?)

def IsDigits (ds : List Char) : Prop :=
  ds ≠ [] ∧ ∀ c ∈ ds, (digit? c).isSome

structure Power where
  letter : Char
  sign : List Char
  digits : List Char

namespace Power

def text (p : Power) : List Char :=
  p.letter :: p.sign ++ p.digits

structure Proper (p : Power) : Prop where
  letter : p.letter = 'e' ∨ p.letter = 'E'
  sign : p.sign = [] ∨ p.sign = ['+'] ∨ p.sign = ['-']
  digits : IsDigits p.digits

def shift (p : Power) : Int :=
  (if p.sign = ['-'] then -1 else 1) * (min (digitsValue 0 p.digits).1 (Nat.pow 2 31) : Nat)

end Power

structure Literal where
  whole : List Char
  fraction : Option (List Char)
  power : Option Power

namespace Literal

def text (l : Literal) : List Char :=
  l.whole ++ (l.fraction.map ('.' :: ·)).getD [] ++ (l.power.map Power.text).getD []

structure Proper (l : Literal) : Prop where
  whole : IsDigits l.whole
  zero : l.whole.head? = some '0' → l.whole = ['0']
  fraction {ds : List Char} : l.fraction = some ds → IsDigits ds
  power {p : Power} : l.power = some p → p.Proper

def value? (negative : Bool) (l : Literal) : Except Fault Value :=
  let (significand, _, dropped) := addDigits 0 0 l.whole
  let (significand, count, _) := addDigits significand 0 (l.fraction.getD [])
  numberValue negative significand dropped.length (l.fraction.map fun _ => count) (l.power.map Power.shift)

end Literal

def Ends (rest : List Char) : Prop :=
  ∀ c ∈ rest.head?, digit? c = none ∧ c ≠ '.' ∧ c ≠ 'e' ∧ c ≠ 'E'

variable {ds cs rest : List Char} {c : Char} {negative : Bool} {v : Value}

theorem Ends.startsDigit (h : Ends rest) : startsDigit rest = false := by
  cases rest with
  | nil => rfl
  | cons c rest => simp [Json.startsDigit, (h c rfl).1]

theorem IsDigits.startsDigit_append (h : IsDigits ds) (rest : List Char) : startsDigit (ds ++ rest) = true := by
  obtain ⟨hne, hd⟩ := h
  cases ds with
  | nil => exact absurd rfl hne
  | cons c ds => exact hd c (by simp)

theorem digit?_of_startsDigit (h : startsDigit (c :: rest) = false) : digit? c = none := by
  simpa [startsDigit] using h

theorem exists_run (cs : List Char) :
    ∃ ds rest, cs = ds ++ rest ∧ (∀ c ∈ ds, (digit? c).isSome) ∧ startsDigit rest = false := by
  induction cs with
  | nil => exact ⟨[], [], rfl, by simp, rfl⟩
  | cons c cs ih =>
    by_cases hc : (digit? c).isSome = true
    · obtain ⟨ds, rest, rfl, hds, hrest⟩ := ih
      exact ⟨c :: ds, rest, rfl, by simpa [hc] using hds, hrest⟩
    · exact ⟨[], c :: cs, rfl, by simp, by simpa [startsDigit] using hc⟩

theorem addDigits_append (hr : startsDigit rest = false) (significand count : Nat) (cs : List Char) :
    addDigits significand count (cs ++ rest) =
      ((addDigits significand count cs).1, (addDigits significand count cs).2.1,
        (addDigits significand count cs).2.2 ++ rest) := by
  fun_induction addDigits significand count cs with
  | case1 significand count =>
    cases rest with
    | nil => rfl
    | cons c rest => simp [addDigits, digit?_of_startsDigit hr]
  | case2 significand count c cs d hd hfits ih => simp [addDigits, hd, hfits, ih]
  | case3 significand count c cs d hd hfits => simp [addDigits, hd, hfits]
  | case4 significand count c cs hc => simp [addDigits, hc]

theorem dropDigits_append (hds : ∀ c ∈ ds, (digit? c).isSome) (hr : startsDigit rest = false) (count : Nat) :
    dropDigits count (ds ++ rest) = (count + ds.length, rest) := by
  induction ds generalizing count with
  | nil =>
    cases rest with
    | nil => rfl
    | cons c rest => simp [dropDigits, digit?_of_startsDigit hr]
  | cons c ds ih =>
    simp only [List.mem_cons, forall_eq_or_imp] at hds
    simp [dropDigits, hds.1, ih hds.2, Nat.add_assoc, Nat.add_comm 1]

theorem digitsValue_append (hr : startsDigit rest = false) (hds : ∀ c ∈ ds, (digit? c).isSome) (value : Nat) :
    digitsValue value (ds ++ rest) = ((digitsValue value ds).1, rest) := by
  induction ds generalizing value with
  | nil =>
    cases rest with
    | nil => rfl
    | cons c rest => simp [digitsValue, digit?_of_startsDigit hr]
  | cons c ds ih =>
    simp only [List.mem_cons, forall_eq_or_imp] at hds
    obtain ⟨d, hd⟩ := Option.isSome_iff_exists.1 hds.1
    simp [digitsValue, hd, ih hds.2]

theorem suffix_addDigits (significand count : Nat) (cs : List Char) :
    (addDigits significand count cs).2.2 <:+ cs := by
  fun_induction addDigits significand count cs with
  | case2 significand count c cs d hd hfits ih => exact ih.trans (List.suffix_cons c cs)
  | _ => exact List.suffix_rfl

theorem le_count_addDigits (significand count : Nat) (cs : List Char) :
    count ≤ (addDigits significand count cs).2.1 := by
  fun_induction addDigits significand count cs with
  | case2 significand count c cs d hd hfits ih => omega
  | _ => exact Nat.le_refl _

theorem wholePart_append (h : IsDigits ds) (hz : ds.head? = some '0' → ds = ['0'])
    (hr : startsDigit rest = false) :
    wholePart (ds ++ rest) = .ok ((addDigits 0 0 ds).1, (addDigits 0 0 ds).2.2 ++ rest) := by
  obtain ⟨hne, hd⟩ := h
  cases ds with
  | nil => exact absurd rfl hne
  | cons c ds =>
    -- a zero is read as a part of its own, and no digit may follow it
    by_cases hc : c = '0'
    · subst hc
      obtain rfl : ds = [] := by simpa using hz rfl
      change (if startsDigit rest then _ else _) = _
      rw [hr]
      rfl
    · obtain ⟨d, hd⟩ := Option.isSome_iff_exists.1 (hd c (by simp))
      have hcount : (addDigits 0 0 (c :: ds)).2.1 ≠ 0 := by
        have hfits : 10 * 0 + d < significandBound := by
          simp only [digit?] at hd
          simp only [significandBound]
          split at hd
          · cases hd
            simp
            omega
          · cases hd
        simp only [addDigits, hd, if_pos hfits]
        have := le_count_addDigits (10 * 0 + d) (0 + 1) ds
        omega
      rw [List.cons_append, wholePart.eq_2 _ fun cs hcs => hc (List.cons.inj hcs).1, ← List.cons_append,
        addDigits_append hr]
      simp only [if_neg hcount]

theorem exists_digits_of_wholePart {result : Nat × List Char} (h : wholePart cs = .ok result) :
    ∃ ds rest, cs = ds ++ rest ∧ IsDigits ds ∧ (ds.head? = some '0' → ds = ['0']) ∧
      startsDigit rest = false := by
  unfold wholePart at h
  split at h
  next cs =>
    split at h
    · cases h
    next hcs => exact ⟨['0'], cs, rfl, ⟨by simp, by simp [digit?]⟩, by simp, by simpa using hcs⟩
  next hz =>
    obtain ⟨ds, rest, rfl, hds, hr⟩ := exists_run cs
    cases ds with
    | nil =>
      rw [List.nil_append] at h
      cases rest with
      | nil => cases h
      | cons c rest => simp [addDigits, digit?_of_startsDigit hr] at h
    | cons c ds =>
      refine ⟨_, rest, rfl, ⟨by simp, hds⟩, fun hhead => ?_, hr⟩
      obtain rfl : c = '0' := by simpa using hhead
      exact absurd rfl (hz (ds ++ rest))

theorem fractionPart_point (h : IsDigits ds) (hr : startsDigit rest = false) (significand : Nat) :
    fractionPart significand ('.' :: ds ++ rest) =
      .ok (some (addDigits significand 0 ds).2.1, (addDigits significand 0 ds).1, rest) := by
  have hsuffix := suffix_addDigits significand 0 ds
  -- there are digits after the point, even if the significand takes none of them
  have hfound : ((addDigits significand 0 ds).2.1 = 0 &&
      !startsDigit ((addDigits significand 0 ds).2.2 ++ rest)) = false := by
    cases ds with
    | nil => exact absurd rfl h.1
    | cons c ds =>
      obtain ⟨d, hd⟩ := Option.isSome_iff_exists.1 (h.2 c (by simp))
      by_cases hfits : 10 * significand + d < significandBound
      · have := le_count_addDigits (10 * significand + d) (0 + 1) ds
        simp only [addDigits, hd, if_pos hfits, Bool.and_eq_false_iff, decide_eq_false_iff_not]
        omega
      · simp [addDigits, hd, hfits, startsDigit]
  simp only [List.cons_append, fractionPart, addDigits_append hr, hfound]
  rw [dropDigits_append (fun c hc => h.2 c (hsuffix.subset hc)) hr]
  rfl

theorem fractionPart_of_ne (h : ∀ ds, cs ≠ '.' :: ds) (significand : Nat) :
    fractionPart significand cs = .ok (none, significand, cs) := by
  rw [fractionPart.eq_2 _ _ h]

theorem exists_digits_of_fractionPart {significand : Nat} {result : Option Nat × Nat × List Char}
    (h : fractionPart significand ('.' :: cs) = .ok result) :
    ∃ ds rest, cs = ds ++ rest ∧ IsDigits ds ∧ startsDigit rest = false := by
  obtain ⟨ds, rest, rfl, hds, hr⟩ := exists_run cs
  refine ⟨ds, rest, rfl, ⟨?_, hds⟩, hr⟩
  rintro rfl
  cases rest with
  | nil => cases h
  | cons c rest => simp [fractionPart, addDigits, digit?_of_startsDigit hr, startsDigit] at h

theorem exponentPart_append {p : Power} (h : p.Proper) (hr : startsDigit rest = false) :
    exponentPart (p.sign ++ (p.digits ++ rest)) = .ok (p.shift, rest) := by
  obtain ⟨-, hsign, hdigits⟩ := h
  have hstart := hdigits.startsDigit_append rest
  have hvalue := digitsValue_append hr hdigits.2 0
  obtain hs | hs | hs := hsign
  · have hne : ∀ {c tail}, digit? c = none → p.digits ++ rest ≠ c :: tail := by
      rintro c tail hc heq
      rw [heq] at hstart
      simp [startsDigit, hc] at hstart
    rw [hs, List.nil_append, exponentPart, if_pos hstart, hvalue]
    · simp [Power.shift, hs]
    · exact fun tail => hne (by decide)
    · exact fun tail => hne (by decide)
  · simp [hs, exponentPart, hstart, hvalue, Power.shift]
  · simp [hs, exponentPart, hstart, hvalue, Power.shift]

theorem powerPart_append {p : Power} (h : p.Proper) (hr : startsDigit rest = false) :
    powerPart (p.text ++ rest) = .ok (some p.shift, rest) := by
  have hletter : (p.letter = 'e' || p.letter = 'E') = true := by simpa using h.letter
  rw [Power.text, List.cons_append, List.cons_append, powerPart, if_pos hletter, List.append_assoc,
    exponentPart_append h hr]
  rfl

theorem powerPart_of_ne (h : ∀ c ∈ cs.head?, c ≠ 'e' ∧ c ≠ 'E') : powerPart cs = .ok (none, cs) := by
  cases cs with
  | nil => rfl
  | cons c cs => simp [powerPart, h c rfl]

theorem exists_sign_of_exponentPart {result : Int × List Char} (h : exponentPart cs = .ok result) :
    ∃ sign tail, cs = sign ++ tail ∧ (sign = [] ∨ sign = ['+'] ∨ sign = ['-']) ∧
      startsDigit tail = true := by
  have hstart : ∀ {tail : List Char} {x : Except Fault (Int × List Char)},
      (if startsDigit tail = true then x else .error .malformed) = .ok result → startsDigit tail = true := by
    intro tail x hif
    split at hif
    next htail => exact htail
    next => cases hif
  unfold exponentPart at h
  dsimp only at h
  split at h
  next tail => exact ⟨['+'], tail, rfl, .inr (.inl rfl), hstart h⟩
  next tail => exact ⟨['-'], tail, rfl, .inr (.inr rfl), hstart h⟩
  next => exact ⟨[], cs, rfl, .inl rfl, hstart h⟩

theorem exists_power_of_powerPart {result : Option Int × List Char} (h : powerPart cs = .ok result)
    (hcs : startsDigit cs = false) :
    ∃ (power : Option Power) (rest : List Char), cs = (power.map Power.text).getD [] ++ rest ∧
      (∀ p, power = some p → p.Proper) ∧ startsDigit rest = false ∧
        (power = none → ∀ c ∈ rest.head?, c ≠ 'e' ∧ c ≠ 'E') := by
  cases cs with
  | nil => exact ⟨none, [], rfl, by simp, hcs, by simp⟩
  | cons c cs =>
    rw [powerPart] at h
    split at h
    next hletter =>
      obtain ⟨_, hexp, -⟩ := bind_eq_ok.1 h
      obtain ⟨sign, tail, rfl, hsign, hstart⟩ := exists_sign_of_exponentPart hexp
      obtain ⟨ds, rest, rfl, hds, hr⟩ := exists_run tail
      have hne : ds ≠ [] := by
        rintro rfl
        simp [hr] at hstart
      have hproper : Power.Proper ⟨c, sign, ds⟩ := ⟨by simpa using hletter, hsign, hne, hds⟩
      exact ⟨some ⟨c, sign, ds⟩, rest, by simp [Power.text], by simp [hproper], hr, by simp⟩
    next hletter => exact ⟨none, c :: cs, rfl, by simp, hcs, fun _ => by simpa using hletter⟩

namespace Literal

variable {l : Literal}

structure Stops (l : Literal) (rest : List Char) : Prop where
  digit : startsDigit rest = false
  point : l.fraction = none → l.power = none → ∀ ds, rest ≠ '.' :: ds
  letter : l.power = none → ∀ c ∈ rest.head?, c ≠ 'e' ∧ c ≠ 'E'

theorem stops_of_ends (h : Ends rest) (l : Literal) : l.Stops rest where
  digit := h.startsDigit
  point _ _ := by
    rintro ds rfl
    exact (h '.' rfl).2.1 rfl
  letter _ c hc := (h c hc).2.2

theorem powerPart_text (hl : l.Proper) (hr : l.Stops rest) :
    let tail := (l.power.map Power.text).getD [] ++ rest
    powerPart tail = .ok (l.power.map Power.shift, rest) ∧ startsDigit tail = false ∧
      (l.fraction = none → ∀ ds, tail ≠ '.' :: ds) := by
  intro tail
  rcases hp : l.power with _ | p
  · have htail : tail = rest := by simp [tail, hp]
    rw [htail]
    exact ⟨powerPart_of_ne (hr.letter hp), hr.digit, fun hf => hr.point hf hp⟩
  · have htail : tail = p.text ++ rest := by simp [tail, hp]
    rw [htail]
    refine ⟨powerPart_append (hl.power hp) hr.digit, ?_⟩
    obtain hletter | hletter := (hl.power hp).letter <;> simp [Power.text, startsDigit, hletter, digit?]

theorem fractionPart_text (hl : l.Proper) (hr : l.Stops rest) (significand : Nat) :
    let tail := (l.power.map Power.text).getD [] ++ rest
    fractionPart significand ((l.fraction.map ('.' :: ·)).getD [] ++ tail) =
        .ok (l.fraction.map fun _ => (addDigits significand 0 (l.fraction.getD [])).2.1,
          (addDigits significand 0 (l.fraction.getD [])).1, tail) ∧
      startsDigit ((l.fraction.map ('.' :: ·)).getD [] ++ tail) = false := by
  intro tail
  obtain ⟨-, hdigit, hpoint⟩ := powerPart_text hl hr
  rcases hf : l.fraction with _ | ds
  · exact ⟨fractionPart_of_ne (hpoint hf) significand, hdigit⟩
  · exact ⟨fractionPart_point (hl.fraction hf) hdigit significand, by simp [startsDigit, digit?]⟩

theorem number_text (hl : l.Proper) (hr : l.Stops rest) (negative : Bool) :
    number negative (l.text ++ rest) = (l.value? negative).map (·, rest) := by
  obtain ⟨hpower, -⟩ := powerPart_text hl hr
  have hfraction := fractionPart_text hl hr
  have hwhole := wholePart_append hl.whole hl.zero (hfraction 0).2
  have hdropped := dropDigits_append
    (fun c hc => hl.whole.2 c ((suffix_addDigits 0 0 l.whole).subset hc)) (hfraction 0).2 0
  rw [text, List.append_assoc, List.append_assoc, number, hwhole]
  simp only [Bind.bind, Except.bind, hdropped, (hfraction _).1, hpower, value?, Nat.zero_add]
  generalize numberValue _ _ _ _ _ = value
  cases value <;> rfl

theorem exists_text_of_number (h : number negative cs = .ok (v, rest)) :
    ∃ (l : Literal) (after : List Char), cs = l.text ++ after ∧ l.Proper ∧ l.Stops after := by
  obtain ⟨⟨significand, left⟩, hwhole, h⟩ := bind_eq_ok.1 h
  obtain ⟨ds, after, rfl, hds, hzero, hr⟩ := exists_digits_of_wholePart hwhole
  rw [wholePart_append hds hzero hr] at hwhole
  cases hwhole
  have hdropped := dropDigits_append (fun c hc => hds.2 c ((suffix_addDigits 0 0 ds).subset hc)) hr 0
  simp only [hdropped] at h
  obtain ⟨⟨fraction, significand, left⟩, hfraction, h⟩ := bind_eq_ok.1 h
  obtain ⟨⟨shift, left⟩, hpower, -⟩ := bind_eq_ok.1 h
  by_cases hpoint : ∃ tail, after = '.' :: tail
  · obtain ⟨tail, rfl⟩ := hpoint
    obtain ⟨fs, tail, rfl, hfs, htail⟩ := exists_digits_of_fractionPart hfraction
    rw [← List.cons_append, fractionPart_point hfs htail] at hfraction
    cases hfraction
    obtain ⟨power, after, rfl, hp, hafter, hletter⟩ := exists_power_of_powerPart hpower htail
    exact ⟨⟨ds, some fs, power⟩, after, by simp [text], ⟨hds, hzero, by simp [hfs], hp _⟩, hafter, by simp,
      hletter⟩
  · rw [fractionPart_of_ne fun tail htail => hpoint ⟨tail, htail⟩] at hfraction
    cases hfraction
    obtain ⟨power, after, rfl, hp, hafter, hletter⟩ := exists_power_of_powerPart hpower hr
    refine ⟨⟨ds, none, power⟩, after, by simp [text], ⟨hds, hzero, by simp, hp _⟩, hafter, ?_, hletter⟩
    rintro - rfl tail rfl
    exact hpoint ⟨tail, rfl⟩

theorem exists_of_number (h : number negative cs = .ok (v, rest)) :
    ∃ l : Literal, cs = l.text ++ rest ∧ l.Proper ∧ l.value? negative = .ok v := by
  obtain ⟨l, after, rfl, hl, hstops⟩ := exists_text_of_number h
  rw [number_text hl hstops] at h
  rcases hv : l.value? negative with e | w <;> rw [hv] at h
  · cases h
  · cases h
    exact ⟨l, rfl, hl, hv⟩

end Literal

end PushKeeper.Json
