import Mathlib
import PushKeeper.Proofs.Feed.Members
import PushKeeper.Proofs.Json.Grammar

namespace PushKeeper.Feed

open Json (Blanks Ends IsElement IsElements IsMember IsMembers IsValue Value bind_eq_ok)

def memberLevels : Nat := 126

inductive Adds (tag : Option Tag) (others : List (String × Value)) :
    String × Value → Option Tag → List (String × Value) → Prop
  | tag {t : Tag} (h : tag = none) : Adds tag others (tagName, .string t.label) (some t) others
  | other {m : String × Value} (h : m.1 ≠ tagName) : Adds tag others m tag (others ++ [m])

def TagIn (tag : Option Tag) (ms : List (String × Value)) (t : Tag) : Prop :=
  tag.toList.map (fun u => Value.string u.label) ++ named ms tagName = [.string t.label]

variable {tag tag' : Option Tag} {t : Tag} {others others' ms : List (String × Value)} {m : String × Value}
  {cs text rest left : List Char} {fuel : Nat}

theorem tagIn_nil : TagIn tag [] t ↔ tag = some t := by
  cases tag with
  | none => simp [TagIn]
  | some u => simpa [TagIn] using ⟨Tag.label_injective, congrArg Tag.label⟩

theorem Adds.filter_eq (h : Adds tag others m tag' others') (ms : List (String × Value)) :
    others' ++ ms.filter (·.1 ≠ tagName) = others ++ (m :: ms).filter (·.1 ≠ tagName) := by
  cases h with
  | tag => simp
  | other hne => simp [hne]

theorem Adds.tagIn_iff (h : Adds tag others m tag' others') : TagIn tag (m :: ms) t ↔ TagIn tag' ms t := by
  cases h with
  | tag htag => simp [TagIn, htag]
  | other hne => simp [TagIn, hne, named]

theorem TagIn.exists_adds (h : TagIn tag (m :: ms) t) (others : List (String × Value)) :
    ∃ tag' others', Adds tag others m tag' others' := by
  by_cases hm : m.1 = tagName
  · obtain ⟨name, v⟩ := m
    obtain rfl : name = tagName := hm
    rw [TagIn, named_cons, if_pos rfl] at h
    cases tag with
    | none =>
      obtain ⟨rfl, -⟩ : v = .string t.label ∧ _ := by simpa using h
      exact ⟨some t, others, .tag rfl⟩
    | some u => simp at h
  · exact ⟨tag, others ++ [m], .other hm⟩

theorem lookup_table {name : String} : Tag.table.lookup name = some t ↔ name = t.label := by
  constructor
  · intro h
    obtain ⟨before, after, htable, -⟩ := List.lookup_eq_some_iff.1 h
    have hmem : (name, t) ∈ Tag.table := by simp [htable]
    obtain ⟨u, -, hu⟩ := List.mem_map.1 hmem
    cases hu
    rfl
  · rintro rfl
    cases t <;> decide

theorem readVariant_eq_ok : Json.readVariant Tag.table cs = .ok (t, rest) ↔
    Json.readString "variant identifier" cs = .ok (t.label, rest) := by
  constructor
  · intro h
    obtain ⟨⟨name, left⟩, hname, h⟩ := bind_eq_ok.1 h
    dsimp only at h
    split at h
    next u hu =>
      cases h
      rw [← lookup_table.1 hu]
      exact hname
    next => cases h
  · intro h
    refine bind_eq_ok.2 ⟨_, h, ?_⟩
    simp only [lookup_table.2 rfl]
    rfl

theorem exists_readTaggedMember (h : IsMember memberLevels m text) (hadds : Adds tag others m tag' others')
    (hr : Ends rest) : ∃ after, Blanks after ∧
      readTaggedMember (memberLevels + 1) tag others (text ++ rest) = .ok ((tag', others'), after ++ rest) := by
  cases h with
  | @mk _ name v before spelled blanks text hb hn ha h =>
    have hname : Json.memberName (before ++ '"' :: spelled ++ '"' :: blanks ++ ':' :: text ++ rest) =
        .ok (name, blanks ++ ':' :: (text ++ rest)) :=
      Json.memberName_eq_ok.2 ⟨before, spelled, hb, hn, by simp⟩
    have hcolon : Json.colon (blanks ++ ':' :: (text ++ rest)) = .ok (text ++ rest) :=
      Json.colon_eq_ok.2 ⟨blanks, ha, rfl⟩
    rw [readTaggedMember, hname]
    cases hadds with
    | tag htag =>
      obtain ⟨after, hafter, hstring⟩ := h.exists_readString "variant identifier" rest
      refine ⟨after, hafter, bind_eq_ok.2 ⟨_, rfl, ?_⟩⟩
      simp only [if_pos, htag, Option.isSome_none, Bool.false_eq_true, if_false]
      exact bind_eq_ok.2 ⟨_, hcolon, bind_eq_ok.2 ⟨_, readVariant_eq_ok.2 hstring, rfl⟩⟩
    | other hne =>
      obtain ⟨after, hafter, hvalue⟩ := h.exists_value hr
      refine ⟨after, hafter, bind_eq_ok.2 ⟨_, rfl, ?_⟩⟩
      simp only [if_neg hne]
      exact bind_eq_ok.2 ⟨_, hcolon, bind_eq_ok.2 ⟨_, hvalue, rfl⟩⟩

theorem exists_isMember_of_readTaggedMember {goesOn : Bool}
    (h : readTaggedMember (memberLevels + 1) tag others cs = .ok ((tag', others'), left))
    (hmore : Json.more '\x7d' left = .ok (goesOn, rest)) : ∃ m text, IsMember memberLevels m text ∧
      Adds tag others m tag' others' ∧ cs = text ++ (if goesOn then ',' else '\x7d') :: rest := by
  obtain ⟨⟨name, tail⟩, hname, h⟩ := bind_eq_ok.1 h
  by_cases htag : name = tagName
  · simp only [if_pos htag] at h
    split at h
    · cases h
    next hnone =>
    obtain ⟨inner, hcolon, h⟩ := bind_eq_ok.1 h
    obtain ⟨⟨t, after⟩, hvariant, h⟩ := bind_eq_ok.1 h
    cases h
    obtain ⟨before, spelled, hb, hn, rfl⟩ := Json.memberName_eq_ok.1 hname
    obtain ⟨blanks, hblanks, rfl⟩ := Json.colon_eq_ok.1 hcolon
    obtain ⟨text, helement, rfl⟩ :=
      Json.exists_isElement_of_readString (readVariant_eq_ok.1 hvariant) hmore memberLevels
    refine ⟨_, _, .mk hb hn hblanks helement, ?_, by simp⟩
    rw [htag]
    exact .tag (Option.not_isSome_iff_eq_none.1 hnone)
  · simp only [if_neg htag] at h
    obtain ⟨inner, hcolon, h⟩ := bind_eq_ok.1 h
    obtain ⟨⟨v, after⟩, hvalue, h⟩ := bind_eq_ok.1 h
    cases h
    obtain ⟨before, spelled, hb, hn, rfl⟩ := Json.memberName_eq_ok.1 hname
    obtain ⟨blanks, hblanks, rfl⟩ := Json.colon_eq_ok.1 hcolon
    obtain ⟨text, helement, rfl⟩ := Json.exists_isElement_of_value hvalue hmore
    exact ⟨_, _, .mk hb hn hblanks helement, .other htag, by simp⟩

theorem readTagged_of_isMembers (h : IsMembers memberLevels ms text) (ht : TagIn tag ms t)
    (hlength : text.length < fuel) (others : List (String × Value)) (rest : List Char) :
    readTagged fuel (memberLevels + 1) tag others (text ++ '\x7d' :: rest) =
      .ok ((t, others ++ ms.filter (·.1 ≠ tagName)), rest) := by
  -- What the tag and the members so far come to is the same before and after each member (`Adds`).
  induction fuel generalizing tag others ms text with
  | zero => exact absurd hlength (Nat.not_lt_zero _)
  | succ fuel ih =>
    rw [readTagged]
    cases h with
    | last h =>
      obtain ⟨tag', others', hadds⟩ := ht.exists_adds others
      obtain rfl := tagIn_nil.1 (hadds.tagIn_iff.1 ht)
      obtain ⟨after, ha, hmember⟩ :=
        exists_readTaggedMember h hadds (Json.ends_cons (c := '\x7d') (by decide) rest)
      refine bind_eq_ok.2 ⟨_, hmember, ?_⟩
      refine bind_eq_ok.2 ⟨_, Json.more_close ha (by decide) (by decide) rest, ?_⟩
      rw [← hadds.filter_eq, List.filter_nil, List.append_nil]
      rfl
    | @cons _ m ms text tail h hmore =>
      simp only [List.length_append, List.length_cons] at hlength
      obtain ⟨tag', others', hadds⟩ := ht.exists_adds others
      obtain ⟨after, ha, hmember⟩ :=
        exists_readTaggedMember h hadds (Json.ends_cons (c := ',') (by decide) (tail ++ '\x7d' :: rest))
      rw [List.append_assoc]
      refine bind_eq_ok.2 ⟨_, hmember, ?_⟩
      refine bind_eq_ok.2 ⟨_, Json.more_comma ha _ _, ?_⟩
      rw [← hadds.filter_eq]
      exact ih hmore (hadds.tagIn_iff.1 ht) (by omega) others'

theorem exists_isMembers_of_readTagged
    (h : readTagged fuel (memberLevels + 1) tag others cs = .ok ((t, others'), rest)) :
    ∃ ms text, IsMembers memberLevels ms text ∧ cs = text ++ '\x7d' :: rest ∧ TagIn tag ms t ∧
      others' = others ++ ms.filter (·.1 ≠ tagName) := by
  induction fuel generalizing tag others cs with
  | zero => cases h
  | succ fuel ih =>
    rw [readTagged] at h
    obtain ⟨⟨⟨tag', added⟩, left⟩, hmember, h⟩ := bind_eq_ok.1 h
    obtain ⟨⟨goesOn, after⟩, hmore, h⟩ := bind_eq_ok.1 h
    obtain ⟨m, text, him, hadds, hcs⟩ := exists_isMember_of_readTaggedMember hmember hmore
    cases goesOn with
    | true =>
      obtain ⟨ms, tail, hms, rfl, ht, rfl⟩ := ih h
      exact ⟨m :: ms, _, .cons him hms, by simp [hcs], hadds.tagIn_iff.2 ht, hadds.filter_eq ms⟩
    | false =>
      cases tag' with
      | none => cases h
      | some u =>
        cases h
        refine ⟨[m], text, .last him, by simp [hcs], hadds.tagIn_iff.2 (tagIn_nil.2 rfl), ?_⟩
        simpa using hadds.filter_eq []

theorem readListed_eq_ok {items : List Value} : readListed (memberLevels + 1) cs = .ok ((t, items), rest) ↔
    ∃ text, IsElements memberLevels (.string t.label :: items) text ∧ cs = text ++ ']' :: rest := by
  constructor
  · intro h
    obtain ⟨⟨u, left⟩, hvariant, h⟩ := bind_eq_ok.1 h
    obtain ⟨⟨goesOn, after⟩, hmore, h⟩ := bind_eq_ok.1 h
    obtain ⟨text, helement, hcs⟩ :=
      Json.exists_isElement_of_readString (readVariant_eq_ok.1 hvariant) hmore memberLevels
    cases goesOn with
    | true =>
      obtain ⟨⟨vs, tail⟩, hitems, h⟩ := bind_eq_ok.1 h
      cases h
      obtain ⟨more, hvs, rfl⟩ := (Json.takes _).items hitems
      exact ⟨_, .cons helement hvs, by simp [hcs]⟩
    | false =>
      cases h
      exact ⟨text, .last helement, hcs⟩
  · rintro ⟨text, h, rfl⟩
    cases h with
    | last h =>
      obtain ⟨after, ha, hstring⟩ := h.exists_readString "variant identifier" (']' :: rest)
      refine bind_eq_ok.2 ⟨_, readVariant_eq_ok.2 hstring, ?_⟩
      exact bind_eq_ok.2 ⟨_, Json.more_close ha (by decide) (by decide) rest, rfl⟩
    | @cons _ _ _ text tail h hmore =>
      obtain ⟨after, ha, hstring⟩ := h.exists_readString "variant identifier" (',' :: tail ++ ']' :: rest)
      rw [List.append_assoc]
      refine bind_eq_ok.2 ⟨_, readVariant_eq_ok.2 hstring, ?_⟩
      refine bind_eq_ok.2 ⟨_, Json.more_comma ha _ _, ?_⟩
      have hlength : 2 * tail.length < 2 * (tail ++ ']' :: rest).length + 2 := by
        simp only [List.length_append]
        omega
      exact bind_eq_ok.2 ⟨_, (Json.reads _).items hmore hlength, rfl⟩

/-- A text of a request: an object whose members denote it, or an array of its tag and fields. -/
inductive Renders (r : Request) : List Char → Prop
  | object {ms : List (String × Value)} {text : List Char} (h : IsValue (memberLevels + 1) (.object ms) text)
      (hr : Denotes ms r) : Renders r text
  | array {t : Tag} {items : List Value} {data : List Datum} {text : List Char}
      (h : IsValue (memberLevels + 1) (.array (.string t.label :: items)) text)
      (hd : t.ofElements 0 t.fields items = .ok data) (hr : t.build? data = some r) : Renders r text

theorem ofData_eq_ok {data : List Datum} {r : Request} :
    Request.ofData t data = .ok r ↔ t.build? data = some r := by
  rw [Request.ofData]
  split
  next h => simp [h]
  next h => simp [h]

theorem forall₂_fieldValue_filter {fs : List Field} (h : ∀ f ∈ fs, f.name ≠ tagName) {data : List Datum} :
    List.Forall₂ (FieldValue (ms.filter (·.1 ≠ tagName))) fs data ↔ List.Forall₂ (FieldValue ms) fs data := by
  induction fs generalizing data with
  | nil => simp
  | cons f fs ih =>
    simp only [List.mem_cons, forall_eq_or_imp] at h
    simp only [List.forall₂_cons_left_iff, ih h.2, FieldValue, named_filter_ne h.1]

theorem name_ne_tagName (t : Tag) : ∀ f ∈ t.fields, f.name ≠ tagName := by
  cases t <;> decide

theorem denotes_iff_ofMembers {r : Request} : Denotes ms r ↔ ∃ t data, TagIn none ms t ∧
    t.ofMembers (ms.filter (·.1 ≠ tagName)) = .ok data ∧ Request.ofData t data = .ok r := by
  simp only [denotes_iff, TagIn, Tag.ofMembers_eq_ok, forall₂_fieldValue_filter (name_ne_tagName _),
    ofData_eq_ok, Option.toList_none, List.map_nil, List.nil_append]

theorem enter_fullDepth : Json.enter Json.fullDepth = .ok (memberLevels + 1) := rfl

theorem exists_renders_of_read {r : Request} (h : Request.read cs = .ok (r, rest)) :
    ∃ before text, Blanks before ∧ Renders r text ∧ cs = before ++ text ++ rest := by
  obtain ⟨before, hb, hcs⟩ := Json.exists_blanks cs
  suffices htext : ∃ text, Renders r text ∧ Json.skipSpace cs = text ++ rest by
    obtain ⟨text, hv, htext⟩ := htext
    exact ⟨before, text, hb, hv, by rw [List.append_assoc, ← htext, ← hcs]⟩
  rw [Request.read] at h
  split at h
  next tail heq =>
    obtain ⟨depth, henter, h⟩ := bind_eq_ok.1 h
    cases enter_fullDepth.symm.trans henter
    obtain ⟨_, _, _, _, hopen⟩ | hopen := Json.opened_cases ']' tail <;> simp only [hopen] at h
    · cases h
    · obtain ⟨⟨⟨t, items⟩, left⟩, hlisted, h⟩ := bind_eq_ok.1 h
      obtain ⟨data, hdata, h⟩ := bind_eq_ok.1 h
      obtain ⟨r, hr, h⟩ := bind_eq_ok.1 h
      cases h
      obtain ⟨text, helements, htext⟩ := readListed_eq_ok.1 hlisted
      obtain ⟨blanks, hblanks, htail⟩ := Json.exists_blanks tail
      refine ⟨_, .array (.array (helements.append hblanks)) hdata (ofData_eq_ok.1 hr), ?_⟩
      rw [heq, htail, htext]
      simp
  next tail heq =>
    obtain ⟨depth, henter, h⟩ := bind_eq_ok.1 h
    cases enter_fullDepth.symm.trans henter
    obtain ⟨_, _, _, _, hopen⟩ | hopen := Json.opened_cases '\x7d' tail <;> simp only [hopen] at h
    · cases h
    · obtain ⟨⟨⟨t, others⟩, left⟩, htagged, h⟩ := bind_eq_ok.1 h
      obtain ⟨data, hdata, h⟩ := bind_eq_ok.1 h
      obtain ⟨r, hr, h⟩ := bind_eq_ok.1 h
      cases h
      obtain ⟨ms, text, hms, htext, ht, rfl⟩ := exists_isMembers_of_readTagged htagged
      obtain ⟨blanks, hblanks, htail⟩ := Json.exists_blanks tail
      refine ⟨_, .object (.object (hms.append hblanks)) (denotes_iff_ofMembers.2 ⟨t, data, ht, hdata, hr⟩), ?_⟩
      rw [heq, htail, htext]
      simp
  next => cases h

theorem read_of_renders {r : Request} (h : Renders r text) {blanks : List Char} (hb : Blanks blanks)
    (rest : List Char) : Request.read (blanks ++ text ++ rest) = .ok (r, rest) := by
  rw [Request.read, List.append_assoc, Json.skipSpace_append hb]
  cases h with
  | object h hr =>
    obtain ⟨t, data, ht, hdata, hr⟩ := denotes_iff_ofMembers.1 hr
    obtain ⟨inner, rfl, ⟨rfl, -⟩ | hms⟩ := h.exists_members
    · simp [TagIn] at ht
    obtain ⟨tail, htail, hskip⟩ := hms.exists_skipSpace
    rw [List.cons_append, List.cons_append, List.append_assoc, Json.skipSpace_of_not (by decide)]
    simp only [hms.opened, hskip, List.singleton_append]
    refine bind_eq_ok.2 ⟨_, enter_fullDepth, ?_⟩
    have hlength : tail.length < (tail ++ '\x7d' :: rest).length := by simp
    refine bind_eq_ok.2 ⟨_, readTagged_of_isMembers htail ht hlength [] rest, ?_⟩
    exact bind_eq_ok.2 ⟨_, hdata, bind_eq_ok.2 ⟨_, hr, rfl⟩⟩
  | array h hd hr =>
    obtain ⟨inner, rfl, ⟨hnil, -⟩ | hvs⟩ := h.exists_elements
    · cases hnil
    obtain ⟨tail, htail, hskip⟩ := hvs.exists_skipSpace
    rw [List.cons_append, List.cons_append, List.append_assoc, Json.skipSpace_of_not (by decide)]
    simp only [hvs.opened, hskip, List.singleton_append]
    refine bind_eq_ok.2 ⟨_, enter_fullDepth, ?_⟩
    refine bind_eq_ok.2 ⟨_, readListed_eq_ok.2 ⟨tail, htail, rfl⟩, ?_⟩
    exact bind_eq_ok.2 ⟨_, hd, bind_eq_ok.2 ⟨_, ofData_eq_ok.2 hr, rfl⟩⟩

/-! Lines. -/

/-- A line is a text with blanks of any kind around it. -/
def Padded (line : String) (text : List Char) : Prop :=
  ∃ before after, (∀ c ∈ before, Text.isBlank c = true) ∧ (∀ c ∈ after, Text.isBlank c = true) ∧
    line.toList = before ++ text ++ after

theorem isBlank_of_isSpace {c : Char} (h : Json.isSpace c = true) : Text.isBlank c = true := by
  simp only [Json.isSpace, Bool.or_eq_true, beq_iff_eq] at h
  obtain ((rfl | rfl) | rfl) | rfl := h <;> decide

theorem isBlank_of_blanks {blanks : List Char} (h : Blanks blanks) : ∀ c ∈ blanks, Text.isBlank c = true :=
  fun c hc => isBlank_of_isSpace (h c hc)

theorem Padded.trimChars_eq {line : String} {first last : Char} {inner : List Char}
    (h : Padded line (first :: inner ++ [last])) (hf : Text.isBlank first = false)
    (hl : Text.isBlank last = false) : Text.trimChars line.toList = first :: inner ++ [last] := by
  obtain ⟨before, after, hb, ha, hline⟩ := h
  rw [hline]
  refine Text.trimChars_append hb ha (by simpa using hf) fun c hc => ?_
  rw [List.getLast?_concat] at hc
  exact Option.some.inj hc ▸ hl

theorem trimChars_of_object {line : String} (h : Padded line text)
    (hv : IsValue (memberLevels + 1) (.object ms) text) : Text.trimChars line.toList = text := by
  obtain ⟨inner, rfl, -⟩ := hv.exists_members
  exact h.trimChars_eq (by decide) (by decide)

theorem trimChars_of_renders {line : String} {r : Request} (h : Padded line text) (hr : Renders r text) :
    Text.trimChars line.toList = text := by
  cases hr with
  | object hv => exact trimChars_of_object h hv
  | array hv =>
    obtain ⟨inner, rfl, -⟩ := hv.exists_elements
    exact h.trimChars_eq (by decide) (by decide)

theorem ofLine_eq_none {line : String} :
    Request.ofLine line = .ok none ↔ ∀ c ∈ line.toList, Text.isBlank c = true := by
  rw [← Text.trimChars_eq_nil, Request.ofLine, Text.trim]
  by_cases h : Text.trimChars line.toList = []
  · simp [h]
  · have hne : (String.ofList (Text.trimChars line.toList)).isEmpty = false := by simpa using h
    simp only [hne, Bool.false_eq_true, if_false, h, iff_false]
    split <;> simp

theorem ofLine_eq_some {line : String} {r : Request} :
    Request.ofLine line = .ok (some r) ↔ ∃ text, Padded line text ∧ Renders r text := by
  have hdecode : Request.ofLine line = .ok (some r) ↔
      Json.decode Request.read (String.ofList (Text.trimChars line.toList)) = .ok r := by
    rw [Request.ofLine, Text.trim]
    by_cases h : Text.trimChars line.toList = []
    · have hnone : Json.decode Request.read (String.ofList []) ≠ .ok r := by
        simp [Json.decode, Request.read, Json.skipSpace, Bind.bind, Except.bind]
      simp [h, hnone]
    · have hne : (String.ofList (Text.trimChars line.toList)).isEmpty = false := by simpa using h
      simp only [hne, Bool.false_eq_true, if_false]
      split <;> simp_all
  rw [hdecode, Json.decode, String.toList_ofList]
  constructor
  · intro h
    obtain ⟨⟨r, rest⟩, hread, h⟩ := bind_eq_ok.1 h
    obtain ⟨u, hfinish, h⟩ := bind_eq_ok.1 h
    cases h
    obtain ⟨blanks, text, hblanks, hrenders, htext⟩ := exists_renders_of_read hread
    obtain ⟨before, after, hb, ha, hline⟩ := Text.exists_trimChars line.toList
    refine ⟨text, ⟨before ++ blanks, rest ++ after, fun c hc => ?_, fun c hc => ?_, ?_⟩, hrenders⟩
    · exact (List.mem_append.1 hc).elim (hb c) (isBlank_of_blanks hblanks c)
    · exact (List.mem_append.1 hc).elim (isBlank_of_blanks (Json.finish_eq_ok.1 hfinish) c) (ha c)
    · rw [hline, htext]
      simp
  · rintro ⟨text, hline, h⟩
    have hread : Request.read text = .ok (r, []) := by simpa using read_of_renders h .nil []
    rw [trimChars_of_renders hline h]
    exact bind_eq_ok.2 ⟨_, hread, bind_eq_ok.2 ⟨_, Json.finish_eq_ok.2 .nil, rfl⟩⟩

theorem ofLine_object {line : String} {r : Request} (h : Padded line text)
    (hv : IsValue (memberLevels + 1) (.object ms) text) :
    Request.ofLine line = .ok (some r) ↔ Denotes ms r := by
  rw [ofLine_eq_some]
  constructor
  · rintro ⟨other, hother, hr⟩
    obtain rfl : text = other :=
      (trimChars_of_object h hv).symm.trans (trimChars_of_renders hother hr)
    cases hr with
    | object hw hr =>
      cases hv.unique hw
      exact hr
    | array hw => cases hv.unique hw
  · exact fun hr => ⟨text, h, .object hv hr⟩

/-- A line is no request exactly when there is nothing but blanks in it. The requests are the lines with an
object whose members denote them, or an array of their tag and fields, with blanks of any kind around. A line
with an object is the request that the members denote, wherever the tag is among them and however they are
spelled; it is refused exactly when the tag or a member of the request is missing, unknown, of another type, or
there twice. -/
theorem lines_are_requests (line : String) :
    (Request.ofLine line = .ok none ↔ ∀ c ∈ line.toList, Text.isBlank c = true) ∧
    (∀ r, Request.ofLine line = .ok (some r) ↔ ∃ text, Padded line text ∧ Renders r text) ∧
    ∀ ms text, Padded line text → IsValue (memberLevels + 1) (.object ms) text →
      (∀ r, Request.ofLine line = .ok (some r) ↔ Denotes ms r) ∧
      ((∃ e, Request.ofLine line = .error e) ↔ Malformed ms) := by
  refine ⟨ofLine_eq_none, fun r => ofLine_eq_some, fun ms text h hv => ⟨fun r => ofLine_object h hv, ?_⟩⟩
  rw [malformed_iff]
  constructor
  · rintro ⟨e, he⟩ r hr
    rw [(ofLine_object h hv).2 hr] at he
    cases he
  · intro hnone
    rcases hline : Request.ofLine line with e | _ | r
    · exact ⟨e, rfl⟩
    · obtain ⟨c, tail, htext, -⟩ := hv.begins
      have htrim := trimChars_of_object h hv
      rw [Text.trimChars_eq_nil.2 (ofLine_eq_none.1 hline), htext] at htrim
      cases htrim
    · exact absurd ((ofLine_object h hv).1 hline) (hnone r)

theorem exists_padded_of_decode {line inner : String} {before after : List Char} {v : Value} {levels : Nat}
    (hv : Json.decode (Json.value (levels + 1)) inner = .ok v) (hb : ∀ c ∈ before, Text.isBlank c = true)
    (ha : ∀ c ∈ after, Text.isBlank c = true) (hline : line.toList = before ++ inner.toList ++ after) :
    ∃ text, Padded line text ∧ IsValue levels v text := by
  obtain ⟨blanks, text, blanks', hbs, hvalue, has, hinner⟩ := Json.decode_eq_ok.1 hv
  refine ⟨text, ⟨before ++ blanks, blanks' ++ after, fun c hc => ?_, fun c hc => ?_, ?_⟩, hvalue⟩
  · exact (List.mem_append.1 hc).elim (hb c) (isBlank_of_blanks hbs c)
  · exact (List.mem_append.1 hc).elim (isBlank_of_blanks has c) (ha c)
  · rw [hline, hinner]
    simp

/-- The tag comes last, a name and a value are escaped, and a space that is none of JSON is behind; and a tag is there
twice. -/
theorem lines_are_requests_of_late_and_double_tag :
    (let line := "\t\x7b \"x\": [\x7b\x7d, true, null], \"endp\\u006fint\":\"\\uD83D\\uDE00\\/\" " ++
       ",\"event\":\"new_endpoint\"\x7d\u2003"
     let ms := [("x", .array [.object [], .bool true, .null]), ("endpoint", .string "😀/"),
       ("event", .string "new_endpoint")]
     (∃ text, Padded line text ∧ IsValue (memberLevels + 1) (.object ms) text) ∧
       Request.ofLine line = .ok (some (.newEndpoint ⟨"😀/"⟩ "default"))) ∧
    let line := "\x7b\"event\":\"quit\",\"event\":\"quit\"\x7d"
    let ms := [("event", .string "quit"), ("event", .string "quit")]
    (∃ text, Padded line text ∧ IsValue (memberLevels + 1) (.object ms) text) ∧
      ∃ e, Request.ofLine line = .error e := by
  refine ⟨?_, ?_⟩ <;> intro line ms
  · have hvalue : Json.decode (Json.value (memberLevels + 2)) ("\x7b \"x\": [\x7b\x7d, true, null], " ++
        "\"endp\\u006fint\":\"\\uD83D\\uDE00\\/\" ,\"event\":\"new_endpoint\"\x7d") = .ok (.object ms) := by cbv
    obtain ⟨text, hline, hv⟩ := exists_padded_of_decode hvalue (List.forall_mem_singleton.2 (by decide))
      (List.forall_mem_singleton.2 (by decide))
      (show line.toList = ['\t'] ++ _ ++ ['\u2003'] by decide +kernel)
    obtain ⟨-, -, hobjects⟩ := lines_are_requests line
    have hdenotes : Denotes ms (.newEndpoint ⟨"😀/"⟩ "default") :=
      .newEndpoint rfl rfl (.inr ⟨rfl, rfl⟩)
    exact ⟨⟨text, hline, hv⟩, ((hobjects ms text hline hv).1 _).2 hdenotes⟩
  · have hvalue : Json.decode (Json.value (memberLevels + 2)) line = .ok (.object ms) := by cbv
    obtain ⟨text, hline, hv⟩ := exists_padded_of_decode hvalue (List.forall_mem_nil _) (List.forall_mem_nil _)
      (show line.toList = [] ++ _ ++ [] by simp)
    obtain ⟨-, -, hobjects⟩ := lines_are_requests line
    exact ⟨⟨text, hline, hv⟩, (hobjects ms text hline hv).2.2 (.retagged (Nat.le_refl 2))⟩

end PushKeeper.Feed
