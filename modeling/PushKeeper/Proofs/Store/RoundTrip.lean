import PushKeeper.Store.Entries
import PushKeeper.Proofs.Json.Strings

namespace PushKeeper.Store.Entries

open Json

def insertAll (e : Entries) (ps : List (String × String)) : Entries :=
  ps.foldl (fun e (k, v) => e.insert k v) e

theorem get?_insertAll {ps : List (String × String)} (h : ps.Pairwise (·.1 < ·.1)) (e : Entries)
    (key : String) : (e.insertAll ps).get? key = (ps.lookup key).or (e.get? key) := by
  induction ps generalizing e with
  | nil => simp [insertAll]
  | cons p ps ih =>
    obtain ⟨hp, hps⟩ := List.pairwise_cons.1 h
    have hstep : (e.insertAll (p :: ps)).get? key = (ps.lookup key).or ((e.insert p.1 p.2).get? key) :=
      ih hps _
    rw [hstep, get?_insert, lookup_pair]
    by_cases hk : key = p.1
    · simp [hk, lookup_eq_none_of_forall_lt hp]
    · simp [hk]

theorem insertAll_pairs (e : Entries) : empty.insertAll e.pairs = e := by
  ext1 key
  rw [get?_insertAll e.sorted, get?_empty, Option.or_none]
  rfl

theorem readMembers_member {fuel : Nat} {e : Entries} {k v : String} {cs rest next : List Char}
    {goesOn : Bool}
    (h : skipSpace cs = Text.quote k ++ ':' :: ' ' :: (Text.quote v ++ rest))
    (hmore : more '\x7d' rest = .ok (goesOn, next)) :
    readMembers (fuel + 1) e cs =
      if goesOn then readMembers fuel (e.insert k v) next else .ok (e.insert k v, next) := by
  have hcolon : colon (':' :: ' ' :: (Text.quote v ++ rest)) = .ok (' ' :: (Text.quote v ++ rest)) := by
    simp [colon, skipSpace, isSpace]
  have hvalue : readString aString (' ' :: (Text.quote v ++ rest)) = .ok (v, rest) := by
    refine readString_quote ?_
    rw [skipSpace_cons (by decide), skipSpace_quote]
  rw [readMembers, memberName_quote h]
  cases goesOn <;>
    simp [hcolon, hvalue, hmore, bind, Except.bind, pure, Except.pure]

theorem readMembers_memberLines {ps : List (String × String)} (hne : ps ≠ []) {fuel : Nat}
    (hfuel : ps.length ≤ fuel) (e : Entries) {cs : List Char} (rest : List Char)
    (h : skipSpace cs = skipSpace (memberLines ps ++ '\x7d' :: rest)) :
    readMembers fuel e cs = .ok (e.insertAll ps, rest) := by
  induction ps generalizing fuel e cs with
  | nil => exact absurd rfl hne
  | cons p ps ih =>
    obtain ⟨k, v⟩ := p
    obtain ⟨fuel, rfl⟩ : ∃ n, fuel = n + 1 := ⟨fuel - 1, by simp at hfuel; omega⟩
    cases ps with
    | nil =>
      have hmember : skipSpace cs =
          Text.quote k ++ ':' :: ' ' :: (Text.quote v ++ '\n' :: '\x7d' :: rest) := by
        rw [h, ← skipSpace_quote]
        simp [memberLines, skipSpace_cons, isSpace]
      have hmore : more '\x7d' ('\n' :: '\x7d' :: rest) = .ok (false, rest) := by
        simp [more, skipSpace, isSpace]
      rw [readMembers_member hmember hmore]
      rfl
    | cons q ps =>
      have hmember : skipSpace cs = Text.quote k ++
          ':' :: ' ' :: (Text.quote v ++ ',' :: '\n' :: (memberLines (q :: ps) ++ '\x7d' :: rest)) := by
        rw [h, ← skipSpace_quote]
        simp [memberLines, skipSpace_cons, isSpace]
      have hmore : more '\x7d' (',' :: '\n' :: (memberLines (q :: ps) ++ '\x7d' :: rest)) =
          .ok (true, '\n' :: (memberLines (q :: ps) ++ '\x7d' :: rest)) := by
        simp [more, skipSpace, isSpace]
      rw [readMembers_member hmember hmore]
      exact ih (by simp) (by simpa using hfuel) _ (skipSpace_cons (by decide) _)

theorem length_le_memberLines (ps : List (String × String)) : ps.length ≤ (memberLines ps).length := by
  fun_induction memberLines ps with
  | case1 => simp
  | case2 => simp
  | case3 => simp; omega

theorem exists_memberLines (p : String × String) (ps : List (String × String)) (rest : List Char) :
    ∃ cs, skipSpace (memberLines (p :: ps) ++ rest) = '"' :: cs ∧ ps.length ≤ cs.length := by
  cases ps with
  | nil => simp [memberLines, Text.quote, skipSpace, isSpace]
  | cons q ps =>
    have hlen := length_le_memberLines (q :: ps)
    refine ⟨_, by simp [memberLines, Text.quote, skipSpace, isSpace]; rfl, ?_⟩
    simp at hlen ⊢
    omega

theorem read_render (e : Entries) : read e.render.toList = .ok (e, []) := by
  unfold render
  split
  next h =>
    have he : e = empty := by rw [← insertAll_pairs e, h]; rfl
    rw [he]
    rfl
  next hne =>
    obtain ⟨p, ps, hps⟩ := List.exists_cons_of_ne_nil hne
    obtain ⟨cs, hcs, hlen⟩ := exists_memberLines p ps ['\x7d']
    have hopened : opened '\x7d' ('\n' :: (memberLines (p :: ps) ++ ['\x7d'])) = (false, '"' :: cs) := by
      rw [opened, skipSpace_cons (by decide), hcs]
      rfl
    have hmembers : readMembers ('"' :: cs).length empty ('"' :: cs) = .ok (e, []) := by
      rw [readMembers_memberLines (List.cons_ne_nil p ps) (by simpa using hlen) empty [], ← hps,
        insertAll_pairs]
      rw [hcs]
      simp [skipSpace, isSpace]
    have hspace : skipSpace ('\x7b' :: '\n' :: memberLines (p :: ps) ++ ['\x7d']) =
        '\x7b' :: '\n' :: (memberLines (p :: ps) ++ ['\x7d']) := by simp [skipSpace, isSpace]
    rw [hps, String.toList_ofList, read, hspace]
    simp only [hopened, hmembers]

theorem parse_render (e : Entries) : parse e.render = .ok e := by
  rw [parse, decode, read_render]
  rfl

end PushKeeper.Store.Entries
