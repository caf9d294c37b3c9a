import PushKeeper.Proofs.Json.Grammar
import PushKeeper.Proofs.Store.RoundTrip

namespace PushKeeper.Store.Entries

open Json

def asValues (ms : List (String × String)) : List (String × Value) :=
  ms.map fun (name, s) => (name, .string s)

def IsObject (ms : List (String × String)) (text : List Char) : Prop :=
  IsElement 1 (.object (asValues ms)) text

theorem get?_insertAll_eq (ms : List (String × String)) (e : Entries) (key : String) :
    (e.insertAll ms).get? key = (ms.reverse.lookup key).or (e.get? key) := by
  induction ms using List.reverseRecOn with
  | nil => rfl
  | append_singleton ms m ih =>
    have hlast : e.insertAll (ms ++ [m]) = (e.insertAll ms).insert m.1 m.2 := by simp [insertAll]
    rw [hlast, get?_insert, ih, List.reverse_append, List.reverse_singleton, List.singleton_append,
      lookup_pair]
    by_cases hk : key = m.1 <;> simp [hk]

variable {levels fuel : Nat} {e e' : Entries} {cs rest text : List Char} {k v : String}
  {ms : List (String × String)}

theorem readMembers_skipSpace (fuel : Nat) (e : Entries) (cs : List Char) :
    readMembers fuel e (skipSpace cs) = readMembers fuel e cs := by
  cases fuel with
  | zero => rfl
  | succ fuel => rw [readMembers, readMembers, memberName_skipSpace]

theorem exists_of_isMember (h : IsMember levels (k, .string v) text) (rest : List Char) :
    ∃ tail inner after, memberName (text ++ rest) = .ok (k, tail) ∧ colon tail = .ok inner ∧
      Blanks after ∧ readString aString inner = .ok (v, after ++ rest) := by
  cases h with
  | @mk _ _ _ before spelled blanks text hb hn ha h =>
    obtain ⟨after, hafter, hread⟩ := h.exists_readString aString rest
    refine ⟨blanks ++ ':' :: (text ++ rest), text ++ rest, after, ?_, ?_, hafter, hread⟩
    · exact memberName_eq_ok.2 ⟨before, spelled, hb, hn, by simp⟩
    · exact colon_eq_ok.2 ⟨blanks, ha, rfl⟩

theorem readMembers_of_isMembers (h : IsMembers levels (asValues ms) text) (hfuel : ms.length ≤ fuel)
    (e : Entries) (rest : List Char) :
    readMembers fuel e (text ++ '\x7d' :: rest) = .ok (e.insertAll ms, rest) := by
  induction ms generalizing fuel e text with
  | nil => cases h
  | cons m ms ih =>
    obtain ⟨k, v⟩ := m
    obtain ⟨fuel, rfl⟩ : ∃ n, fuel = n + 1 := ⟨fuel - 1, by simp at hfuel; omega⟩
    rw [readMembers]
    change IsMembers levels ((k, .string v) :: asValues ms) text at h
    generalize hvalues : asValues ms = values at h
    cases h with
    | last h =>
      obtain rfl : ms = [] := by simpa [asValues] using hvalues
      obtain ⟨tail, inner, after, hname, hcolon, ha, hv⟩ := exists_of_isMember h ('\x7d' :: rest)
      refine bind_eq_ok.2 ⟨_, hname, bind_eq_ok.2 ⟨_, hcolon, bind_eq_ok.2 ⟨_, hv, ?_⟩⟩⟩
      exact bind_eq_ok.2 ⟨_, more_close ha (by decide) (by decide) rest, rfl⟩
    | @cons _ _ _ text more h hmore =>
      obtain ⟨tail, inner, after, hname, hcolon, ha, hv⟩ :=
        exists_of_isMember h (',' :: (more ++ '\x7d' :: rest))
      rw [List.append_assoc]
      refine bind_eq_ok.2 ⟨_, hname, bind_eq_ok.2 ⟨_, hcolon, bind_eq_ok.2 ⟨_, hv, ?_⟩⟩⟩
      refine bind_eq_ok.2 ⟨_, more_comma ha _ _, ?_⟩
      exact ih (hvalues ▸ hmore) (by simpa using hfuel) (e.insert k v)

theorem exists_isMembers_of_readMembers (h : readMembers fuel e cs = .ok (e', rest)) (levels : Nat) :
    ∃ ms text, IsMembers levels (asValues ms) text ∧ cs = text ++ '\x7d' :: rest ∧
      e' = e.insertAll ms := by
  induction fuel generalizing e cs with
  | zero => cases h
  | succ fuel ih =>
    rw [readMembers] at h
    obtain ⟨⟨k, tail⟩, hname, h⟩ := bind_eq_ok.1 h
    obtain ⟨inner, hcolon, h⟩ := bind_eq_ok.1 h
    obtain ⟨⟨v, left⟩, hv, h⟩ := bind_eq_ok.1 h
    obtain ⟨⟨goesOn, left⟩, hmore, hend⟩ := bind_eq_ok.1 h
    obtain ⟨before, spelled, hb, hs, rfl⟩ := memberName_eq_ok.1 hname
    obtain ⟨after, ha, rfl⟩ := colon_eq_ok.1 hcolon
    obtain ⟨text, helement, rfl⟩ := exists_isElement_of_readString hv hmore levels
    have hmember := IsMember.mk hb hs ha helement
    cases goesOn with
    | true =>
      obtain ⟨ms, tail, hms, rfl, rfl⟩ := ih hend
      exact ⟨(k, v) :: ms, _, .cons hmember hms, by simp, rfl⟩
    | false =>
      cases hend
      exact ⟨[(k, v)], _, .last hmember, by simp, rfl⟩

theorem length_le_of_isMembers (h : IsMembers levels (asValues ms) text) : ms.length ≤ text.length := by
  induction ms generalizing text with
  | nil => simp
  | cons m ms ih =>
    change IsMembers levels ((m.1, .string m.2) :: asValues ms) text at h
    generalize hvalues : asValues ms = values at h
    cases h with
    | last h =>
      obtain rfl : ms = [] := by simpa [asValues] using hvalues
      obtain ⟨hb, hn, ha, h⟩ := h
      simp only [List.length_append, List.length_cons, List.length_nil]
      omega
    | cons h hmore =>
      have htail := ih (hvalues ▸ hmore)
      simp only [List.length_append, List.length_cons]
      omega

theorem exists_isObject_of_read (h : read cs = .ok (e, rest)) :
    ∃ ms text, IsObject ms text ∧ cs = text ++ rest ∧ e = empty.insertAll ms := by
  rw [read] at h
  split at h
  next tail heq =>
    obtain ⟨before, hb, rfl⟩ := exists_blanks_of_skipSpace heq
    obtain ⟨blanks, left, hblanks, rfl, hopen⟩ | hopen := opened_cases '\x7d' tail <;>
      simp only [hopen] at h
    · cases h
      exact ⟨[], _, .mk hb (.emptyObject hblanks) .nil, by simp, rfl⟩
    · rw [readMembers_skipSpace] at h
      obtain ⟨ms, text, hms, rfl, rfl⟩ := exists_isMembers_of_readMembers h 0
      exact ⟨ms, _, .mk hb (.object hms) .nil, by simp, rfl⟩
  next => cases h

theorem read_of_isObject (h : IsObject ms text) :
    ∃ after, Blanks after ∧ read text = .ok (empty.insertAll ms, after) := by
  rw [IsObject] at h
  generalize hv : Value.object (asValues ms) = v at h
  cases h with
  | @mk _ _ before text after hb hvalue ha =>
    subst hv
    refine ⟨after, ha, ?_⟩
    obtain ⟨inner, rfl, hinner⟩ := hvalue.exists_members
    rw [read, List.append_assoc, skipSpace_append hb, List.cons_append, List.cons_append,
      List.append_assoc, List.singleton_append, skipSpace_of_not (by decide)]
    obtain ⟨hnil, hblanks⟩ | hms := hinner
    · obtain rfl : ms = [] := by simpa [asValues] using hnil
      have hopen : opened '\x7d' (inner ++ '\x7d' :: after) = (true, after) :=
        opened_close hblanks (by decide) after
      simp only [hopen]
      rfl
    · obtain ⟨tail, htail, hskip⟩ := hms.exists_skipSpace
      have hlength := length_le_of_isMembers htail
      simp only [hms.opened, hskip]
      exact readMembers_of_isMembers htail (by rw [List.length_append]; omega) empty after

theorem parse_eq_ok {s : String} :
    parse s = .ok e ↔ ∃ ms, IsObject ms s.toList ∧ e = empty.insertAll ms := by
  constructor
  · intro h
    obtain ⟨⟨e', rest⟩, hread, h⟩ := bind_eq_ok.1 h
    obtain ⟨u, hfinish, h⟩ := bind_eq_ok.1 h
    cases h
    obtain ⟨ms, text, ⟨hb, hv, ha⟩, hs, rfl⟩ := exists_isObject_of_read hread
    refine ⟨ms, ?_, rfl⟩
    rw [hs, List.append_assoc]
    exact .mk hb hv (ha.append (finish_eq_ok.1 hfinish))
  · rintro ⟨ms, h, rfl⟩
    obtain ⟨after, ha, hread⟩ := read_of_isObject h
    exact bind_eq_ok.2 ⟨_, hread, bind_eq_ok.2 ⟨_, finish_eq_ok.2 ha, rfl⟩⟩

end PushKeeper.Store.Entries
