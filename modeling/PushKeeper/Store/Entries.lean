import PushKeeper.Json.Reader
import PushKeeper.Json.Printer

namespace PushKeeper.Store

/-- Pairs of a key and its value, in strictly increasing order of the keys. -/
structure Entries where
  pairs : List (String × String)
  sorted : pairs.Pairwise (·.1 < ·.1)

namespace Entries

instance : DecidableEq Entries := fun a b =>
  decidable_of_iff (a.pairs = b.pairs) ⟨fun h => by cases a; cases b; simp_all, fun h => h ▸ rfl⟩

def empty : Entries := ⟨[], .nil⟩

instance : Inhabited Entries := ⟨empty⟩

def get? (e : Entries) (key : String) : Option String :=
  e.pairs.lookup key

def insertPair (key value : String) : List (String × String) → List (String × String)
  | [] => [(key, value)]
  | (k, v) :: rest =>
    if key < k then (key, value) :: (k, v) :: rest
    else if key = k then (key, value) :: rest
    else (k, v) :: insertPair key value rest

theorem mem_insertPair {key value : String} {ps : List (String × String)} {p : String × String}
    (h : p ∈ insertPair key value ps) : p = (key, value) ∨ p ∈ ps := by
  induction ps with
  | nil => simpa [insertPair] using h
  | cons q rest ih =>
    simp only [insertPair] at h
    split at h
    · simpa using h
    · split at h
      · simp only [List.mem_cons] at h ⊢
        exact h.imp_right .inr
      · simp only [List.mem_cons] at h ⊢
        rcases h with h | h
        · exact .inr (.inl h)
        · exact (ih h).imp_right .inr

theorem sorted_insertPair (key value : String) {ps : List (String × String)}
    (h : ps.Pairwise (·.1 < ·.1)) : (insertPair key value ps).Pairwise (·.1 < ·.1) := by
  induction ps with
  | nil => simp [insertPair]
  | cons q rest ih =>
    obtain ⟨hq, hrest⟩ := List.pairwise_cons.1 h
    simp only [insertPair]
    split
    · rename_i hlt
      refine List.pairwise_cons.2 ⟨fun p hp => ?_, h⟩
      rcases List.mem_cons.1 hp with rfl | hp
      · exact hlt
      · exact String.lt_trans hlt (hq p hp)
    · split
      · rename_i heq
        exact List.pairwise_cons.2 ⟨fun p hp => heq ▸ hq p hp, hrest⟩
      · rename_i hlt hne
        refine List.pairwise_cons.2 ⟨fun p hp => ?_, ih hrest⟩
        rcases mem_insertPair hp with rfl | hp
        · exact String.not_le.1 fun hle => hne (String.le_antisymm hle (String.not_lt.1 hlt))
        · exact hq p hp

def insert (e : Entries) (key value : String) : Entries :=
  ⟨insertPair key value e.pairs, sorted_insertPair key value e.sorted⟩

def erase (e : Entries) (key : String) : Entries :=
  ⟨e.pairs.filter (·.1 ≠ key), e.sorted.filter _⟩

def ofList (ps : List (String × String)) : Entries :=
  ps.foldl (fun e (k, v) => e.insert k v) empty

@[simp] theorem get?_empty (key : String) : empty.get? key = none := rfl

theorem lookup_pair (k : String) (p : String × String) (ps : List (String × String)) :
    (p :: ps).lookup k = if k = p.1 then some p.2 else ps.lookup k := by
  obtain ⟨p1, p2⟩ := p
  by_cases h : k = p1
  · simp [h]
  · have : (k == p1) = false := by simpa using h
    simp [List.lookup_cons, this, h]

theorem lookup_insertPair (key value k : String) (ps : List (String × String)) :
    (insertPair key value ps).lookup k = if k = key then some value else ps.lookup k := by
  induction ps with
  | nil => simp [insertPair]
  | cons q rest ih =>
    simp only [insertPair]
    split
    · simp only [lookup_pair]
    · split
      · rename_i heq
        by_cases h : k = key <;> simp [lookup_pair, h, ← heq]
      · rename_i hne
        by_cases hq : k = q.1
        · simp [lookup_pair, hq, Ne.symm hne]
        · simp [lookup_pair, hq, ih]

@[simp] theorem get?_insert (e : Entries) (key value k : String) :
    (e.insert key value).get? k = if k = key then some value else e.get? k :=
  lookup_insertPair key value k e.pairs

@[simp] theorem get?_erase (e : Entries) (key k : String) :
    (e.erase key).get? k = if k = key then none else e.get? k := by
  simp only [get?, erase]
  induction e.pairs with
  | nil => simp
  | cons q rest ih =>
    by_cases hq : q.1 = key
    · rw [List.filter_cons_of_neg (by simpa using hq), ih, lookup_pair]
      by_cases hk : k = key
      · simp [hk]
      · simp [hk, hq]
    · rw [List.filter_cons_of_pos (by simpa using hq), lookup_pair, lookup_pair, ih]
      by_cases hk : k = q.1
      · simp [hk, hq]
      · simp [hk]

theorem lookup_eq_none_of_forall_lt {ps : List (String × String)} {k : String}
    (h : ∀ p ∈ ps, k < p.1) : ps.lookup k = none := by
  induction ps with
  | nil => rfl
  | cons q rest ih =>
    have hne : k ≠ q.1 := fun heq => String.lt_irrefl _ (heq ▸ h q (by simp))
    rw [lookup_pair, if_neg hne]
    exact ih fun p hp => h p (by simp [hp])

theorem pairs_eq_of_lookup_eq {ps qs : List (String × String)} (hp : ps.Pairwise (·.1 < ·.1))
    (hq : qs.Pairwise (·.1 < ·.1)) (h : ∀ k, ps.lookup k = qs.lookup k) : ps = qs := by
  induction ps generalizing qs with
  | nil =>
    cases qs with
    | nil => rfl
    | cons q qs => simpa [lookup_pair] using h q.1
  | cons p ps ih =>
    cases qs with
    | nil => simpa [lookup_pair] using h p.1
    | cons q qs =>
      obtain ⟨hp1, hp2⟩ := List.pairwise_cons.1 hp
      obtain ⟨hq1, hq2⟩ := List.pairwise_cons.1 hq
      have hkey : p.1 = q.1 := by
        refine String.le_antisymm (String.not_lt.1 fun hlt => ?_) (String.not_lt.1 fun hlt => ?_)
        · have hn : ps.lookup q.1 = none :=
            lookup_eq_none_of_forall_lt fun r hr => String.lt_trans hlt (hp1 r hr)
          have hne : q.1 ≠ p.1 := fun heq => String.lt_irrefl _ (heq ▸ hlt)
          simpa [lookup_pair, hne, hn] using h q.1
        · have hn : qs.lookup p.1 = none :=
            lookup_eq_none_of_forall_lt fun r hr => String.lt_trans hlt (hq1 r hr)
          have hne : p.1 ≠ q.1 := fun heq => String.lt_irrefl _ (heq ▸ hlt)
          simpa [lookup_pair, hne, hn] using h p.1
      have hval : p.2 = q.2 := by simpa [lookup_pair, hkey] using h p.1
      have hpq : p = q := Prod.ext hkey hval
      subst hpq
      refine congrArg (p :: ·) (ih hp2 hq2 fun k => ?_)
      by_cases hk : k = p.1
      · rw [hk, lookup_eq_none_of_forall_lt hp1, lookup_eq_none_of_forall_lt hq1]
      · simpa [lookup_pair, hk] using h k

@[ext] theorem ext {a b : Entries} (h : ∀ k, a.get? k = b.get? k) : a = b := by
  have := pairs_eq_of_lookup_eq a.sorted b.sorted h
  cases a
  cases b
  simpa using this

def memberLines : List (String × String) → List Char
  | [] => []
  | [(k, v)] => [' ', ' '] ++ Json.Text.quote k ++ [':', ' '] ++ Json.Text.quote v ++ ['\n']
  | (k, v) :: rest =>
    [' ', ' '] ++ Json.Text.quote k ++ [':', ' '] ++ Json.Text.quote v ++ [',', '\n'] ++
      memberLines rest

def render (e : Entries) : String :=
  match e.pairs with
  | [] => "\x7b\x7d"
  | pairs => String.ofList ('\x7b' :: '\n' :: memberLines pairs ++ ['\x7d'])

def readMembers (fuel : Nat) (e : Entries) (cs : List Char) :
    Except Json.Fault (Entries × List Char) :=
  match fuel with
  | 0 => .error .malformed
  | fuel + 1 => do
    let (key, cs) ← Json.memberName cs
    let (value, cs) ← Json.readString Json.aString (← Json.colon cs)
    match ← Json.more '\x7d' cs with
    | (true, cs) => readMembers fuel (e.insert key value) cs
    | (false, cs) => return (e.insert key value, cs)

def read : Json.Reader Entries := fun cs =>
  match Json.skipSpace cs with
  | '\x7b' :: cs =>
    match Json.opened '\x7d' cs with
    | (true, cs) => .ok (empty, cs)
    | (false, cs) => readMembers cs.length empty cs
  | cs => .error (Json.unexpected "a map" cs)

def parse (text : String) : Except Json.Fault Entries :=
  Json.decode read text

end Entries

end PushKeeper.Store
