import Mathlib.Data.List.Induction

namespace PushKeeper.Run

variable {S A I : Type}

def after (act : A → S → S) (s : S) (acts : List A) : S :=
  acts.foldl (fun s a => act a s) s

def notes (act : A → S → S) (note : A → S → List I) (s : S) : List A → List I
  | [] => []
  | a :: acts => note a s ++ notes act note (act a s) acts

variable (act : A → S → S) (note : A → S → List I) (s : S)

@[simp] theorem after_nil : after act s [] = s := rfl

@[simp] theorem after_append (as bs : List A) :
    after act s (as ++ bs) = after act (after act s as) bs := by
  simp [after]

@[simp] theorem after_singleton (a : A) : after act s [a] = act a s := rfl

theorem after_keeps {act : A → S → S} {s : S} {P : S → Prop} {acts : List A} (hs : P s)
    (h : ∀ a ∈ acts, ∀ t, P t → P (act a t)) : P (after act s acts) := by
  induction acts generalizing s with
  | nil => exact hs
  | cons a acts ih =>
    refine ih (h a (by simp) s hs) fun b hb => ?_
    exact h b (List.mem_cons_of_mem a hb)

theorem after_absorbed {act : A → S → S} {a b : A} (h : ∀ t, act b (act a t) = act a t) (s : S)
    (before rest : List A) :
    after act s (before ++ a :: b :: rest) = after act s (before ++ a :: rest) := by
  simp [after, h]

theorem after_eq_or_changed {V : Type} (show? : S → V) (acts : List A) :
    show? (after act s acts) = show? s ∨ ∃ before a rest, acts = before ++ a :: rest ∧
      show? (act a (after act s before)) ≠ show? (after act s before) ∧
      show? (after act s acts) = show? (act a (after act s before)) := by
  induction acts using List.reverseRecOn with
  | nil => exact .inl rfl
  | append_singleton acts a ih =>
    rw [after_append, after_singleton]
    by_cases hsame : show? (act a (after act s acts)) = show? (after act s acts)
    · rw [hsame]
      refine ih.imp_right ?_
      rintro ⟨before, b, rest, rfl, hb, hlast⟩
      exact ⟨before, b, rest ++ [a], by simp, hb, hlast⟩
    · exact .inr ⟨acts, a, [], rfl, hsame, rfl⟩

theorem after_map {T B : Type} {act : A → S → S} {act' : B → T → T} {f : S → T} {g : A → B}
    (h : ∀ a t, f (act a t) = act' (g a) (f t)) (s : S) (acts : List A) :
    f (after act s acts) = after act' (f s) (acts.map g) := by
  induction acts generalizing s with
  | nil => rfl
  | cons a acts ih => exact (ih (act a s)).trans (by rw [h]; rfl)

theorem notes_map {T B : Type} {act : A → S → S} {act' : B → T → T} {note : A → S → List I}
    {note' : B → T → List I} {f : S → T} {g : A → B} (h : ∀ a t, f (act a t) = act' (g a) (f t))
    (hnote : ∀ a t, note a t = note' (g a) (f t)) (s : S) (acts : List A) :
    notes act note s acts = notes act' note' (f s) (acts.map g) := by
  induction acts generalizing s with
  | nil => rfl
  | cons a acts ih => rw [notes, List.map_cons, notes, ih, h, hnote]

@[simp] theorem notes_nil : notes act note s [] = [] := rfl

@[simp] theorem notes_append (as bs : List A) :
    notes act note s (as ++ bs) =
      notes act note s as ++ notes act note (after act s as) bs := by
  induction as generalizing s with
  | nil => rfl
  | cons a as ih =>
    simp only [List.cons_append, notes, ih, List.append_assoc]
    rfl

@[simp] theorem notes_singleton (a : A) : notes act note s [a] = note a s := by
  simp [notes]

theorem mem_notes_iff {i : I} {acts : List A} :
    i ∈ notes act note s acts ↔
      ∃ before a rest, acts = before ++ a :: rest ∧ i ∈ note a (after act s before) := by
  constructor
  · induction acts generalizing s with
    | nil => simp
    | cons a acts ih =>
      intro h
      obtain h | h := List.mem_append.1 h
      · exact ⟨[], a, acts, rfl, h⟩
      · obtain ⟨before, b, rest, rfl, hb⟩ := ih (act a s) h
        exact ⟨a :: before, b, rest, rfl, hb⟩
  · rintro ⟨before, a, rest, rfl, ha⟩
    rw [notes_append]
    exact List.mem_append_right _ (List.mem_append_left _ ha)

/-- Once there was an act of which `Q` held in the state it found, and `P` has held ever since. -/
def Since (Q : A → S → Prop) (P : S → Prop) (acts : List A) : Prop :=
  ∃ before a rest, acts = before ++ a :: rest ∧ Q a (after act s before) ∧
    ∀ p, p <+: rest → P (after act s (before ++ a :: p))

section

variable {act s} {Q : A → S → Prop} {P : S → Prop} {acts : List A} {a : A}

theorem not_since_nil : ¬ Since act s Q P [] := by
  rintro ⟨before, a, rest, h, -⟩
  simp at h

theorem since_concat_iff :
    Since act s Q P (acts ++ [a]) ↔
      P (after act s (acts ++ [a])) ∧ (Q a (after act s acts) ∨ Since act s Q P acts) := by
  constructor
  · rintro ⟨before, b, rest, hacts, hb, hp⟩
    cases rest using List.reverseRecOn with
    | nil =>
      obtain ⟨rfl, rfl⟩ : acts = before ∧ a = b := by simpa using hacts
      exact ⟨hp [] List.prefix_rfl, .inl hb⟩
    | append_singleton rest c =>
      have hacts' : acts ++ [a] = (before ++ b :: rest) ++ [c] := by simpa using hacts
      refine ⟨?_, .inr ⟨before, b, rest, (List.append_inj' hacts' rfl).1, hb, ?_⟩⟩
      · rw [hacts]
        exact hp _ List.prefix_rfl
      · intro p hpre
        exact hp p (hpre.trans (List.prefix_append _ _))
  · rintro ⟨hlast, ha | ⟨before, b, rest, rfl, hb, hp⟩⟩
    · refine ⟨acts, a, [], rfl, ha, ?_⟩
      intro p hpre
      rw [List.prefix_nil.1 hpre]
      exact hlast
    · refine ⟨before, b, rest ++ [a], by simp, hb, ?_⟩
      intro p hpre
      obtain rfl | hpre := List.prefix_concat_iff.1 hpre
      · simpa using hlast
      · exact hp p hpre

theorem Since.last (h : Since act s Q P acts) : P (after act s acts) := by
  obtain ⟨before, a, rest, rfl, -, hp⟩ := h
  exact hp rest List.prefix_rfl

end

end PushKeeper.Run
