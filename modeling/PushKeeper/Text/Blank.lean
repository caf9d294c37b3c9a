
namespace PushKeeper.Text

def isBlank (c : Char) : Bool :=
  let n := c.val
  (0x9 ≤ n && n ≤ 0xD) || n == 0x20 || n == 0x85 || n == 0xA0 || n == 0x1680 ||
    (0x2000 ≤ n && n ≤ 0x200A) || n == 0x2028 || n == 0x2029 || n == 0x202F || n == 0x205F ||
    n == 0x3000

def trimChars (cs : List Char) : List Char :=
  ((cs.dropWhile isBlank).reverse.dropWhile isBlank).reverse

def trim (s : String) : String :=
  String.ofList (trimChars s.toList)

def isBlankText (s : String) : Bool :=
  s.toList.all isBlank

theorem trimChars_of_forall {cs : List Char} (h : ∀ c ∈ cs, isBlank c = false) :
    trimChars cs = cs := by
  have hdrop : ∀ ds : List Char, (∀ c ∈ ds, isBlank c = false) → ds.dropWhile isBlank = ds := by
    intro ds hds
    cases ds with
    | nil => rfl
    | cons d ds => exact List.dropWhile_cons_of_neg (by simp [hds d])
  rw [trimChars, hdrop cs h, hdrop _ fun c hc => h c (List.mem_reverse.1 hc), List.reverse_reverse]

theorem dropWhile_isBlank_append {blanks : List Char} (hb : ∀ c ∈ blanks, isBlank c = true) {cs : List Char}
    (hcs : ∀ c ∈ cs.head?, isBlank c = false) : (blanks ++ cs).dropWhile isBlank = cs := by
  rw [List.dropWhile_append_of_pos hb]
  cases cs with
  | nil => rfl
  | cons c cs => exact List.dropWhile_cons_of_neg (by simp [hcs c rfl])

theorem trimChars_append {before cs after : List Char} (hb : ∀ c ∈ before, isBlank c = true)
    (ha : ∀ c ∈ after, isBlank c = true) (hfirst : ∀ c ∈ cs.head?, isBlank c = false)
    (hlast : ∀ c ∈ cs.getLast?, isBlank c = false) : trimChars (before ++ cs ++ after) = cs := by
  cases cs with
  | nil =>
    have hall : ∀ c ∈ before ++ after, isBlank c = true := fun c hc =>
      (List.mem_append.1 hc).elim (hb c) (ha c)
    have hdrop : ((before ++ after) ++ []).dropWhile isBlank = [] := dropWhile_isBlank_append hall (by simp)
    rw [List.append_nil] at hdrop ⊢
    rw [trimChars, hdrop]
    rfl
  | cons c cs =>
    rw [trimChars, List.append_assoc, dropWhile_isBlank_append hb (by simpa using hfirst),
      List.reverse_append,
      dropWhile_isBlank_append (by simpa using ha) fun d hd => hlast d (List.head?_reverse ▸ hd),
      List.reverse_reverse]

theorem exists_trimChars (cs : List Char) : ∃ before after, (∀ c ∈ before, isBlank c = true) ∧
    (∀ c ∈ after, isBlank c = true) ∧ cs = before ++ trimChars cs ++ after := by
  have hall : ∀ ds : List Char, ∀ c ∈ ds.takeWhile isBlank, isBlank c = true := fun ds =>
    List.all_eq_true.1 List.all_takeWhile
  refine ⟨cs.takeWhile isBlank, ((cs.dropWhile isBlank).reverse.takeWhile isBlank).reverse, hall cs,
    fun c hc => hall _ c (List.mem_reverse.1 hc), ?_⟩
  rw [trimChars, List.append_assoc, ← List.reverse_append, List.takeWhile_append_dropWhile,
    List.reverse_reverse, List.takeWhile_append_dropWhile]

theorem trimChars_eq_nil {cs : List Char} : trimChars cs = [] ↔ ∀ c ∈ cs, isBlank c = true := by
  constructor
  · intro h
    obtain ⟨before, after, hb, ha, hcs⟩ := exists_trimChars cs
    rw [h, List.append_nil] at hcs
    rw [hcs]
    exact fun c hc => (List.mem_append.1 hc).elim (hb c) (ha c)
  · intro h
    have htrim : trimChars (cs ++ [] ++ []) = [] := trimChars_append h (by simp) (by simp) (by simp)
    simpa using htrim

end PushKeeper.Text
