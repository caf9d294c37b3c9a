import PushKeeper.Daemon.Session
import Mathlib.Data.List.TakeWhile

namespace PushKeeper.Daemon

inductive Line
  | request (r : Feed.Request)
  | blank
  | bad (cause : Failure)
  | garbled
  deriving DecidableEq

def Line.ofBytes (line : List UInt8) : Line :=
  match String.fromUTF8? ⟨line.toArray⟩ with
  | none => .garbled
  | some text =>
    match Feed.Request.ofLine text with
    | .error cause => .bad cause
    | .ok none => .blank
    | .ok (some r) => .request r

def chomp (line : List UInt8) : List UInt8 :=
  if line.getLast? = some 13 then line.dropLast else line

def lines (input : List UInt8) : List (List UInt8) :=
  let pieces := input.splitOn 10
  pieces.dropLast.map chomp ++ pieces.getLast?.toList.filter (· ≠ [])

section

variable {line : List UInt8}

theorem bne_of_not_mem (h : 10 ∉ line) : ∀ b ∈ line, (b != 10) = true := by
  intro b hb
  simpa using ne_of_mem_of_not_mem hb h

theorem lines_nil : lines [] = [] := rfl

theorem lines_append (h : 10 ∉ line) (rest : List UInt8) :
    lines (line ++ 10 :: rest) = chomp line :: lines rest := by
  have hs : (line ++ 10 :: rest).splitOn 10 = line :: rest.splitOn 10 :=
    List.splitOnP_append_cons_of_forall_mem (by simpa using bne_of_not_mem h) 10 (by simp) rest
  have hne := List.splitOn_ne_nil 10 rest
  simp only [lines, hs, List.dropLast_cons_of_ne_nil hne, List.map_cons, List.cons_append,
    List.getLast?_cons_of_ne_nil hne]

theorem lines_of_not_mem (h : 10 ∉ line) (hne : line ≠ []) : lines line = [line] := by
  have hs : line.splitOn 10 = [line] :=
    List.splitOnP_eq_singleton (by simpa using bne_of_not_mem h)
  simp [lines, hs, hne]

theorem nextLine?_append (h : 10 ∉ line) (rest : List UInt8) :
    nextLine? (line ++ 10 :: rest) = some (chomp line, rest) := by
  have ht : (line ++ 10 :: rest).takeWhile (· != 10) = line := by
    simp [List.takeWhile_append_of_pos (bne_of_not_mem h)]
  have hb : ∀ bytes, bytes ≠ [] → bytes.takeWhile (· != 10) = line →
      bytes.drop line.length = 10 :: rest → nextLine? bytes = some (chomp line, rest) := by
    intro bytes hne ht hd
    unfold nextLine?
    split
    · exact absurd rfl hne
    · simp [ht, hd, chomp]
  exact hb _ (by simp) ht (by simp)

theorem nextLine?_of_not_mem (h : 10 ∉ line) (hne : line ≠ []) :
    nextLine? line = some (line, []) := by
  have ht : line.takeWhile (· != 10) = line := List.takeWhile_eq_self_iff.2 (bne_of_not_mem h)
  unfold nextLine?
  split
  · exact absurd rfl hne
  · simp [ht]

end

theorem nextLine?_cases (bytes : List UInt8) :
    (nextLine? bytes = none ∧ bytes = [] ∧ lines bytes = []) ∨
      ∃ line rest, nextLine? bytes = some (line, rest) ∧ rest.length < bytes.length ∧
        lines bytes = line :: lines rest := by
  by_cases h : 10 ∈ bytes
  · obtain ⟨line, rest, rfl, hn⟩ := List.eq_append_cons_of_mem h
    refine .inr ⟨chomp line, rest, nextLine?_append hn rest, ?_, lines_append hn rest⟩
    simp
    omega
  · by_cases hne : bytes = []
    · subst hne
      exact .inl ⟨rfl, rfl, lines_nil⟩
    · refine .inr ⟨bytes, [], nextLine?_of_not_mem h hne, ?_, lines_of_not_mem h hne⟩
      exact List.length_pos_iff.2 hne

end PushKeeper.Daemon
