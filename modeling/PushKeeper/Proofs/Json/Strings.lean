import PushKeeper.Json.Reader

namespace PushKeeper.Json

theorem bind_eq_ok {α β : Type} {x : Except Fault α} {f : α → Except Fault β} {b : β} :
    (x >>= f) = .ok b ↔ ∃ a, x = .ok a ∧ f a = .ok b := by
  cases x with
  | error e => simp [Bind.bind, Except.bind]
  | ok a => simp [Bind.bind, Except.bind]

namespace Text

open PushKeeper.Text.Quoted (hexDigit)

inductive Spells : List Char → List Char → Prop
  | nil : Spells [] []
  | plain {c : Char} {cs text : List Char} (hq : c ≠ '"') (hb : c ≠ '\\') (hc : ¬ c.toNat < 0x20)
      (h : Spells cs text) : Spells (c :: cs) (c :: text)
  | letter {e c : Char} {cs text : List Char} (he : escaped? e = some c) (h : Spells cs text) :
      Spells (c :: cs) ('\\' :: e :: text)
  | unit {a b c d : Char} {n : Nat} {cs text : List Char} (hn : unit? a b c d = some n)
      (hlead : ¬ isLeading n) (htrail : ¬ isTrailing n) (h : Spells cs text) :
      Spells (Char.ofNat n :: cs) ('\\' :: 'u' :: a :: b :: c :: d :: text)
  | pair {a b c d e f g i : Char} {n m : Nat} {cs text : List Char} (hn : unit? a b c d = some n)
      (hlead : isLeading n) (hm : unit? e f g i = some m) (htrail : isTrailing m) (h : Spells cs text) :
      Spells (Char.ofNat (0x10000 + (n - 0xD800) * 1024 + (m - 0xDC00)) :: cs)
        ('\\' :: 'u' :: a :: b :: c :: d :: '\\' :: 'u' :: e :: f :: g :: i :: text)

inductive Raw : List Piece → List Char → Prop
  | nil : Raw [] []
  | plain {c : Char} {ps : List Piece} {text : List Char} (hq : c ≠ '"') (hb : c ≠ '\\')
      (hc : ¬ c.toNat < 0x20) (h : Raw ps text) : Raw (.char c :: ps) (c :: text)
  | letter {e c : Char} {ps : List Piece} {text : List Char} (he : escaped? e = some c) (h : Raw ps text) :
      Raw (.char c :: ps) ('\\' :: e :: text)
  | unit {a b c d : Char} {n : Nat} {ps : List Piece} {text : List Char} (hn : unit? a b c d = some n)
      (h : Raw ps text) : Raw (.unit n :: ps) ('\\' :: 'u' :: a :: b :: c :: d :: text)

variable {s : String} {ps : List Piece} {cs input text rest : List Char}

theorem pieces_of_raw (h : Raw ps text) (rest : List Char) :
    pieces (text ++ '"' :: rest) = .ok (ps, rest) := by
  induction h with
  | nil => simp [pieces]
  | @plain c ps text hq hb hc h ih =>
    rw [List.cons_append,
      pieces.eq_5 c _ hq (fun _ _ _ _ _ he _ => hb he) fun _ _ he _ => hb he, if_neg (by simp [hb, hc])]
    exact bind_eq_ok.2 ⟨_, ih, rfl⟩
  | @letter e c ps text he h ih =>
    have hu : e ≠ 'u' := by rintro rfl; cases he
    rw [List.cons_append, List.cons_append, pieces.eq_4 e _ fun _ _ _ _ _ hc _ => hu hc, he]
    exact bind_eq_ok.2 ⟨_, ih, rfl⟩
  | @unit a b c d n ps text hn h ih =>
    simp only [List.cons_append, pieces, hn]
    exact bind_eq_ok.2 ⟨_, ih, rfl⟩

theorem exists_raw_of_pieces (h : pieces input = .ok (ps, rest)) :
    ∃ text, input = text ++ '"' :: rest ∧ Raw ps text := by
  fun_induction pieces input generalizing ps with
  | case2 cs =>
    cases h
    exact ⟨[], rfl, .nil⟩
  | case3 a b c d cs n hn ih =>
    obtain ⟨⟨qs, r⟩, hqs, h⟩ := bind_eq_ok.1 h
    cases h
    obtain ⟨text, rfl, hraw⟩ := ih hqs
    exact ⟨_, rfl, .unit hn hraw⟩
  | case5 e cs hu c he ih =>
    obtain ⟨⟨qs, r⟩, hqs, h⟩ := bind_eq_ok.1 h
    cases h
    obtain ⟨text, rfl, hraw⟩ := ih hqs
    exact ⟨_, rfl, .letter he hraw⟩
  | case8 c cs hq _ _ hc ih =>
    obtain ⟨⟨qs, r⟩, hqs, h⟩ := bind_eq_ok.1 h
    cases h
    obtain ⟨text, rfl, hraw⟩ := ih hqs
    obtain ⟨hb, hc⟩ : c ≠ '\\' ∧ ¬ c.toNat < 0x20 := by simpa using hc
    exact ⟨_, rfl, .plain hq hb hc hraw⟩
  | _ => cases h

theorem exists_raw_of_spells (h : Spells cs text) : ∃ ps, Raw ps text ∧ join ps = .ok cs := by
  induction h with
  | nil => exact ⟨[], .nil, by simp [join]⟩
  | plain hq hb hc h ih =>
    obtain ⟨ps, hraw, hjoin⟩ := ih
    exact ⟨_, .plain hq hb hc hraw, bind_eq_ok.2 ⟨_, hjoin, rfl⟩⟩
  | letter he h ih =>
    obtain ⟨ps, hraw, hjoin⟩ := ih
    exact ⟨_, .letter he hraw, bind_eq_ok.2 ⟨_, hjoin, rfl⟩⟩
  | unit hn hlead htrail h ih =>
    obtain ⟨ps, hraw, hjoin⟩ := ih
    refine ⟨_, .unit hn hraw, ?_⟩
    rw [join.eq_def]
    simp only [if_neg hlead, if_neg htrail]
    exact bind_eq_ok.2 ⟨_, hjoin, rfl⟩
  | pair hn hlead hm htrail h ih =>
    obtain ⟨ps, hraw, hjoin⟩ := ih
    refine ⟨_, .unit hn (.unit hm hraw), ?_⟩
    rw [join.eq_def]
    simp only [if_pos hlead, if_pos htrail]
    exact bind_eq_ok.2 ⟨_, hjoin, rfl⟩

theorem spells_of_raw (hraw : Raw ps text) (hjoin : join ps = .ok cs) : Spells cs text := by
  fun_induction join ps generalizing text cs with
  | case1 =>
    cases hjoin
    cases hraw
    exact .nil
  | case2 c ps ih =>
    obtain ⟨ds, hds, h⟩ := bind_eq_ok.1 hjoin
    cases h
    cases hraw with
    | plain hq hb hc hraw => exact .plain hq hb hc (ih hraw hds)
    | letter he hraw => exact .letter he (ih hraw hds)
  | case3 n hlead m ps htrail ih =>
    obtain ⟨ds, hds, h⟩ := bind_eq_ok.1 hjoin
    cases h
    obtain _ | _ | _ | ⟨hn, _ | _ | _ | ⟨hm, hraw⟩⟩ := hraw
    exact .pair hn hlead hm htrail (ih hraw hds)
  | case7 n ps hlead htrail ih =>
    obtain ⟨ds, hds, h⟩ := bind_eq_ok.1 hjoin
    cases h
    obtain _ | _ | _ | ⟨hn, hraw⟩ := hraw
    exact .unit hn hlead htrail (ih hraw hds)
  | _ => cases hjoin

theorem string_eq_ok : string input = .ok (s, rest) ↔
    ∃ text, input = text ++ '"' :: rest ∧ Spells s.toList text := by
  constructor
  · intro h
    obtain ⟨⟨ps, r⟩, hps, h⟩ := bind_eq_ok.1 h
    obtain ⟨cs, hcs, h⟩ := bind_eq_ok.1 h
    cases h
    obtain ⟨text, rfl, hraw⟩ := exists_raw_of_pieces hps
    exact ⟨text, rfl, by simpa using spells_of_raw hraw hcs⟩
  · rintro ⟨text, rfl, h⟩
    obtain ⟨ps, hraw, hjoin⟩ := exists_raw_of_spells h
    rw [string, pieces_of_raw hraw]
    change (do return (String.ofList (← join ps), rest)) = _
    rw [hjoin]
    change Except.ok (String.ofList s.toList, rest) = _
    rw [String.ofList_toList]

theorem escape_cases (c : Char) :
    (∃ e, escape c = ['\\', e] ∧ escaped? e = some c) ∨
      (c.toNat < 0x20 ∧
        escape c = ['\\', 'u', '0', '0', hexDigit (c.toNat / 16), hexDigit (c.toNat % 16)]) ∨
      (c ≠ '"' ∧ c ≠ '\\' ∧ ¬ c.toNat < 0x20 ∧ escape c = [c]) := by
  by_cases h : c ∈ ['"', '\\', '\x08', '\x0c', '\n', '\r', '\t']
  · simp only [List.mem_cons, List.not_mem_nil, or_false] at h
    left
    rcases h with rfl | rfl | rfl | rfl | rfl | rfl | rfl <;> exact ⟨_, rfl, rfl⟩
  · simp only [List.mem_cons, List.not_mem_nil, or_false, not_or] at h
    by_cases hc : c.toNat < 0x20
    · exact .inr (.inl ⟨hc, by simp [escape, h, hc]⟩)
    · exact .inr (.inr ⟨h.1, h.2.1, hc, by simp [escape, h, hc]⟩)

theorem unit?_hexDigit {n : Nat} (h : n < 0x20) :
    unit? '0' '0' (hexDigit (n / 16)) (hexDigit (n % 16)) = some n := by
  revert n
  decide

theorem spells_escape (c : Char) (h : Spells cs text) : Spells (c :: cs) (escape c ++ text) := by
  obtain ⟨e, he, hc⟩ | ⟨hc, he⟩ | ⟨hq, hb, hc, he⟩ := escape_cases c
  · exact he ▸ .letter hc h
  · -- A control character is no half of another one.
    have hlead : ¬ isLeading c.toNat := by
      simp only [isLeading, Bool.and_eq_true, decide_eq_true_eq]
      omega
    have htrail : ¬ isTrailing c.toNat := by
      simp only [isTrailing, Bool.and_eq_true, decide_eq_true_eq]
      omega
    have hspells := Spells.unit (unit?_hexDigit hc) hlead htrail h
    rw [Char.ofNat_toNat] at hspells
    exact he ▸ hspells
  · exact he ▸ .plain hq hb hc h

theorem spells_flatMap_escape (cs : List Char) : Spells cs (cs.flatMap escape) := by
  induction cs with
  | nil => exact .nil
  | cons c cs ih => exact spells_escape c ih

theorem exists_quote (s : String) (rest : List Char) :
    ∃ cs, quote s ++ rest = '"' :: cs ∧ string cs = .ok (s, rest) :=
  ⟨s.toList.flatMap escape ++ '"' :: rest, by simp [quote],
    string_eq_ok.2 ⟨_, rfl, spells_flatMap_escape s.toList⟩⟩

end Text

theorem skipSpace_cons {c : Char} (h : isSpace c = true) (cs : List Char) :
    skipSpace (c :: cs) = skipSpace cs := by
  simp [skipSpace, h]

theorem skipSpace_quote (s : String) (rest : List Char) :
    skipSpace (Text.quote s ++ rest) = Text.quote s ++ rest := by
  simp [Text.quote, skipSpace, isSpace]

variable {s : String} {cs rest : List Char}

theorem memberName_quote (h : skipSpace cs = Text.quote s ++ rest) : memberName cs = .ok (s, rest) := by
  obtain ⟨inner, hq, hs⟩ := Text.exists_quote s rest
  rw [memberName, h, hq]
  exact hs

theorem readString_quote {expected : String} (h : skipSpace cs = Text.quote s ++ rest) :
    readString expected cs = .ok (s, rest) := by
  obtain ⟨inner, hq, hs⟩ := Text.exists_quote s rest
  rw [readString, h, hq]
  exact hs

end PushKeeper.Json
