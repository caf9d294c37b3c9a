import Mathlib.Data.List.Chain
import PushKeeper.Fetch.Job
import PushKeeper.Settings.Basic
import PushKeeper.Proofs.Run
import PushKeeper.Proofs.Store.Honest

namespace PushKeeper.Fetch

open Store (Honest KeyValueStore)
open Store.Values

namespace Progress

def strategy : Progress → Strategy
  | enqueuing strategy => strategy
  | pulling strategy => strategy
  | finished outcome => outcome.strategy

def onEnqueued (answer : Except Failure Bool) : Progress → Progress
  | enqueuing strategy => afterEnqueue strategy answer
  | p => p

def onPulled (answer : Except Failure Unit) : Progress → Progress
  | pulling strategy => afterPull strategy answer
  | p => p

@[simp] theorem strategy_onEnqueued (answer : Except Failure Bool) (p : Progress) :
    (p.onEnqueued answer).strategy = p.strategy := by
  cases p with
  | enqueuing _ => rcases answer with _ | _ | _ <;> rfl
  | pulling _ => rfl
  | finished _ => rfl

@[simp] theorem strategy_onPulled (answer : Except Failure Unit) (p : Progress) :
    (p.onPulled answer).strategy = p.strategy := by
  cases p <;> rfl

end Progress

/-- When a fetch started, and what it does. -/
structure Choice where
  time : UInt64
  strategy : Strategy

namespace Choice

def foregrounds (choices : List Choice) : List Nat :=
  (choices.filter (·.strategy.isForeground)).map (·.time.toNat)

def lastForeground (stored : Nat) (choices : List Choice) : Nat :=
  (foregrounds choices).getLast?.getD stored

variable (stored : Nat) (c : Choice)

@[simp] theorem foregrounds_append (cs ds : List Choice) :
    foregrounds (cs ++ ds) = foregrounds cs ++ foregrounds ds := by
  simp [foregrounds]

@[simp] theorem foregrounds_singleton :
    foregrounds [c] = if c.strategy = .foreground then [c.time.toNat] else [] := by
  cases h : c.strategy <;> simp [foregrounds, h, Strategy.isForeground]

theorem lastForeground_append (cs ds : List Choice) : lastForeground stored (cs ++ ds) =
    lastForeground (lastForeground stored cs) ds := by
  simp [lastForeground, List.getLast?_append, Option.getD_or]

@[simp] theorem lastForeground_nil : lastForeground stored [] = stored := rfl

@[simp] theorem lastForeground_singleton : lastForeground stored [c] =
    if c.strategy = .foreground then c.time.toNat else stored := by
  cases h : c.strategy <;> simp [lastForeground, h]

theorem isChain_foregrounds {stored gap : Nat} {choices : List Choice}
    (h : ∀ earlier c later, choices = earlier ++ c :: later → c.strategy = .foreground →
      lastForeground stored earlier + gap < c.time.toNat) :
    (stored :: foregrounds choices).IsChain fun t u => t + gap < u := by
  induction choices using List.reverseRecOn with
  | nil => simp [foregrounds]
  | append_singleton choices c ih =>
    have hchain := ih fun earlier d later hsplit => h earlier d (later ++ [c]) (by simp [hsplit])
    rw [foregrounds_append, foregrounds_singleton]
    cases hc : c.strategy with
    | background => simpa using hchain
    | foreground =>
      have hgap := h choices c [] rfl hc
      have hlast : lastForeground stored choices ∈ (stored :: foregrounds choices).getLast? := by
        simp [lastForeground, List.getLast?_cons]
      refine List.isChain_append.2 ⟨hchain, by simp, fun t ht u hu => ?_⟩
      obtain rfl : t = lastForeground stored choices := Option.mem_unique ht hlast
      obtain rfl : c.time.toNat = u := by simpa using hu
      exact hgap

end Choice

structure Job where
  time : UInt64
  progress : Progress

def Job.choice (job : Job) : Choice := ⟨job.time, job.progress.strategy⟩

def Job.advance (f : Progress → Progress) (job : Job) : Job := ⟨job.time, f job.progress⟩

/-- Fetches on one store, in the order in which they started, each as far as it is. -/
structure Jobs (σ : Type) where
  policy : Policy
  store : σ
  jobs : List Job := []

/-- What can happen to fetches. -/
inductive Happening (σ : Type)
  | start (now : UInt64)
  | enqueued (n : Nat) (answer : Except Failure Bool)
  | pulled (n : Nat) (answer : Except Failure Unit)
  | others (store : σ)

variable {σ : Type} [KeyValueStore σ] [Honest σ]

def stampText (s : σ) : Option String := (Honest.entries s).get? lastFetchKey

/-- The time of that text: zero if there is none or it cannot be read. -/
def stampTime (s : σ) : Nat := timeOf (stampText s)

theorem stampTime_lt (s : σ) : stampTime s < timeBound := by
  unfold stampTime timeOf
  cases h : (stampText s).bind (Text.Numeral.parse? timeBound) with
  | none => decide
  | some n =>
    obtain ⟨text, -, hn⟩ := Option.bind_eq_some_iff.1 h
    exact Text.Numeral.lt_of_parse? hn

structure Grants (s : σ) : Prop where
  get_ok : ∃ text, KeyValueStore.get lastFetchKey s = .ok text
  put_ok : ∀ text, (KeyValueStore.put lastFetchKey text s).1 = .ok ()

section

variable {s : σ}

theorem Grants.lastStamp_eq (hg : Grants s) : Progress.lastStamp s = stampTime s := by
  obtain ⟨text, ht⟩ := hg.get_ok
  have hl : lastFetch s = .ok (timeOf text) := by rw [lastFetch, ht]; rfl
  rw [Progress.lastStamp, hl, Honest.get_ok ht]
  rfl

theorem Grants.stampTime_setLastFetch (hg : Grants s) (now : UInt64) :
    stampTime ((setLastFetch now.toNat).on s).2 = now.toNat := by
  have hput : ((setLastFetch now.toNat).on s).2 =
      (KeyValueStore.put lastFetchKey (Text.Numeral.render now.toNat) s).2 := rfl
  have hlt : now.toNat < timeBound := now.toNat_lt
  rw [stampTime, stampText, hput, Honest.put_ok (hg.put_ok _)]
  simp [timeOf, Text.Numeral.parse?_render hlt]

theorem Grants.stampTime_stamp (hg : Grants s) (strategy : Strategy) (now : UInt64) :
    stampTime (Progress.stamp strategy now.toNat s) =
      if strategy = .foreground then now.toNat else stampTime s := by
  cases strategy with
  | foreground => exact hg.stampTime_setLastFetch now
  | background => rfl

theorem Grants.strategyAt_eq_foreground_iff {f : Settings.Fetching} (hg : Grants s)
    (hm : f.foregroundMandatory = false) (now : Nat) :
    Progress.strategyAt f.policy now s = .foreground ↔
      f.platformRequiresForeground = true ∧ stampTime s + 1000 * f.cooldownSeconds < now := by
  rw [Progress.strategyAt, hg.lastStamp_eq]
  simp [Policy.select, Settings.Fetching.policy, hm, Nat.lt_sub_iff_add_lt, Nat.add_comm]

end

/-- The time since a stamp on the clock's words: none if the clock went back. -/
def elapsed (now stamp : UInt64) : UInt64 := if stamp ≤ now then now - stamp else 0

theorem toNat_elapsed (now stamp : UInt64) : (elapsed now stamp).toNat = now.toNat - stamp.toNat := by
  unfold elapsed
  split
  next h => exact UInt64.toNat_sub_of_le _ _ h
  next h =>
    rw [UInt64.le_iff_toNat_le] at h
    simp
    omega

namespace Jobs

def happen : Happening σ → Jobs σ → Jobs σ
  | .start now, j =>
    let (progress, store) := Progress.start j.policy now.toNat j.store
    { j with store, jobs := j.jobs ++ [⟨now, progress⟩] }
  | .enqueued n answer, j => { j with jobs := j.jobs.modify n (.advance (.onEnqueued answer)) }
  | .pulled n answer, j => { j with jobs := j.jobs.modify n (.advance (.onPulled answer)) }
  | .others s, j => if stampText s = stampText j.store then { j with store := s } else j

def after (j : Jobs σ) (hs : List (Happening σ)) : Jobs σ := Run.after happen j hs

def choices (j : Jobs σ) : List Choice := j.jobs.map Job.choice

def choiceAt (now : UInt64) (j : Jobs σ) : Choice :=
  ⟨now, Progress.strategyAt j.policy now.toNat j.store⟩

/-- Whenever a fetch starts, the store lets the stamp be read and written. -/
def Granted (j : Jobs σ) (hs : List (Happening σ)) : Prop :=
  ∀ before now, before ++ [.start now] <+: hs → Grants (j.after before).store

variable (j : Jobs σ)

theorem map_choice_modify (n : Nat) (f : Progress → Progress) (hf : ∀ p, (f p).strategy = p.strategy)
    (jobs : List Job) : (jobs.modify n (.advance f)).map Job.choice = jobs.map Job.choice := by
  induction jobs generalizing n with
  | nil => simp
  | cons job jobs ih => cases n <;> simp [ih, Job.advance, Job.choice, hf]

def chosen : Happening σ → Jobs σ → List Choice
  | .start now, j => [j.choiceAt now]
  | _, _ => []

@[simp] theorem policy_happen (h : Happening σ) : (j.happen h).policy = j.policy := by
  cases h with
  | others s => simp only [happen]; split <;> rfl
  | _ => rfl

theorem choices_happen (h : Happening σ) : (j.happen h).choices = j.choices ++ chosen h j := by
  cases h with
  | start now => simp [choices, happen, chosen, choiceAt, Progress.start, Job.choice, Progress.strategy]
  | enqueued n answer => simp [choices, happen, chosen, map_choice_modify]
  | pulled n answer => simp [choices, happen, chosen, map_choice_modify]
  | others s => simp only [happen]; split <;> simp [choices, chosen]

def idle (policy : Policy) (s : σ) : Jobs σ := ⟨policy, s, []⟩

section

variable {j} {hs : List (Happening σ)}

@[simp] theorem after_nil : j.after [] = j := rfl

theorem after_concat (h : Happening σ) : j.after (hs ++ [h]) = (j.after hs).happen h := by
  simp [after]

theorem policy_after : (j.after hs).policy = j.policy :=
  Run.after_keeps (P := fun k : Jobs σ => k.policy = j.policy) rfl fun h _ k hk => by
    rw [policy_happen, hk]

theorem Granted.of_concat {h : Happening σ} (hg : j.Granted (hs ++ [h])) : j.Granted hs :=
  fun before now hpre => hg before now (hpre.trans (List.prefix_append hs [h]))

theorem Granted.of_keeps {P : σ → Prop} (hP : ∀ s, P s → Grants s) (hj : P j.store)
    (h : ∀ a ∈ hs, ∀ k : Jobs σ, P k.store → P (k.happen a).store) : j.Granted hs := by
  intro before now hpre
  refine hP _ (Run.after_keeps (P := fun k : Jobs σ => P k.store) hj fun a ha => ?_)
  exact h a (((List.prefix_append _ _).trans hpre).subset ha)

theorem stampTime_happen (h : Happening σ) (hg : ∀ now, h = .start now → Grants j.store) :
    stampTime (j.happen h).store = Choice.lastForeground (stampTime j.store) (chosen h j) := by
  cases h with
  | start now =>
    rw [chosen, Choice.lastForeground_singleton]
    exact (hg now rfl).stampTime_stamp _ now
  | enqueued n answer => rfl
  | pulled n answer => rfl
  | others s =>
    simp only [happen]
    split
    next hs => exact congrArg timeOf hs
    next => rfl

theorem stampTime_after (hg : j.Granted hs) (hj : j.choices = []) :
    stampTime (j.after hs).store = Choice.lastForeground (stampTime j.store) (j.after hs).choices := by
  induction hs using List.reverseRecOn with
  | nil => rw [after_nil, hj]; rfl
  | append_singleton hs h ih =>
    have hstart : ∀ now, h = .start now → Grants (j.after hs).store := by
      rintro now rfl
      exact hg hs now List.prefix_rfl
    rw [after_concat, stampTime_happen h hstart, choices_happen, Choice.lastForeground_append,
      ih hg.of_concat]

theorem choice_of_split (hj : j.choices = []) {earlier later : List Choice} {c : Choice}
    (h : (j.after hs).choices = earlier ++ c :: later) :
    ∃ before, before ++ [.start c.time] <+: hs ∧ (j.after before).choices = earlier ∧
      c = (j.after before).choiceAt c.time := by
  induction hs using List.reverseRecOn generalizing later with
  | nil => simp [hj] at h
  | append_singleton hs a ih =>
    rw [after_concat, choices_happen] at h
    -- A choice that was there before the last happening was made before it.
    have hearlier : ∀ later, (j.after hs).choices = earlier ++ c :: later →
        ∃ before, before ++ [.start c.time] <+: hs ++ [a] ∧
          (j.after before).choices = earlier ∧ c = (j.after before).choiceAt c.time := by
      intro later hl
      obtain ⟨before, hpre, hbefore⟩ := ih hl
      exact ⟨before, hpre.trans (List.prefix_append hs [a]), hbefore⟩
    cases a with
    | start now =>
      obtain rfl | ⟨later, d, rfl⟩ := List.eq_nil_or_concat later
      · obtain ⟨hpast, hc⟩ := List.append_inj' h rfl
        obtain rfl : c = (j.after hs).choiceAt now := by simpa [chosen] using hc.symm
        exact ⟨hs, List.prefix_rfl, hpast, rfl⟩
      · have hlater : (j.after hs).choices ++ [(j.after hs).choiceAt now] =
            (earlier ++ c :: later) ++ [d] := by simpa [chosen] using h
        exact hearlier later (List.append_inj' hlater rfl).1
    | _ => exact hearlier later (by simpa [chosen] using h)

end

end Jobs

/-- Where the settings leave it to the cooldown, a fetch runs in the foreground exactly if the platform asks
for it and the cooldown since the last foreground fetch has been exceeded. So foreground fetches are more
than the cooldown apart, whatever the clock shows; the stamp is always that of the last of them; and
reckoning with words of 64 bits is exact. -/
theorem foreground_iff_cooled_down (f : Settings.Fetching) (hm : f.foregroundMandatory = false) (s : σ)
    (hs : List (Happening σ)) (hg : (Jobs.idle f.policy s).Granted hs) :
    let j := (Jobs.idle f.policy s).after hs
    let gap := 1000 * f.cooldownSeconds
    (∀ earlier c later, j.choices = earlier ++ c :: later →
      let last := Choice.lastForeground (stampTime s) earlier
      (c.strategy = .foreground ↔
        f.platformRequiresForeground = true ∧ last + gap < c.time.toNat) ∧
      ∃ stamp : UInt64, stamp.toNat = last ∧
        c.strategy = f.policy.select (elapsed c.time stamp).toNat) ∧
    (stampTime s :: Choice.foregrounds j.choices).IsChain (fun t u => t + gap < u) ∧
    stampTime j.store = Choice.lastForeground (stampTime s) j.choices ∧
    ∀ now, (j.choiceAt now).strategy = .background → (j.happen (.start now)).store = j.store := by
  intro j gap
  -- Each choice was made on a store whose stamp was that of the last foreground fetch before it.
  have hrule : ∀ earlier c later, j.choices = earlier ++ c :: later →
      ∃ t : σ, Grants t ∧ stampTime t = Choice.lastForeground (stampTime s) earlier ∧
        c.strategy = Progress.strategyAt f.policy c.time.toNat t := by
    intro earlier c later hsplit
    obtain ⟨before, hpre, rfl, hc⟩ := Jobs.choice_of_split rfl hsplit
    have hb : (Jobs.idle f.policy s).Granted before := fun b now hbn =>
      hg b now (hbn.trans ((List.prefix_append before _).trans hpre))
    refine ⟨_, hg before c.time hpre, Jobs.stampTime_after hb rfl, ?_⟩
    rw [hc, Jobs.choiceAt, Jobs.policy_after]
    rfl
  have hiff : ∀ earlier c later, j.choices = earlier ++ c :: later → (c.strategy = .foreground ↔
      f.platformRequiresForeground = true ∧
        Choice.lastForeground (stampTime s) earlier + gap < c.time.toNat) := by
    intro earlier c later hsplit
    obtain ⟨t, ht, hstamp, hc⟩ := hrule earlier c later hsplit
    rw [hc, ht.strategyAt_eq_foreground_iff hm, hstamp]
  refine ⟨fun earlier c later hsplit => ⟨hiff earlier c later hsplit, ?_⟩, ?_, ?_, ?_⟩
  · obtain ⟨t, ht, hstamp, hc⟩ := hrule earlier c later hsplit
    refine ⟨.ofNatLT (stampTime t) (stampTime_lt t), hstamp, ?_⟩
    rw [hc, Progress.strategyAt, ht.lastStamp_eq, toNat_elapsed]
    rfl
  · exact Choice.isChain_foregrounds fun earlier c later hsplit hc =>
      ((hiff earlier c later hsplit).1 hc).2
  · exact Jobs.stampTime_after hg rfl
  · intro now hback
    have hstrategy : Progress.strategyAt j.policy now.toNat j.store = .background := hback
    simp [Jobs.happen, Progress.start, Progress.stamp, hstrategy, Strategy.isForeground]

theorem grants_of_not_refused {s : Store.FaultyStore} (hget : s.refuses .get lastFetchKey = false)
    (hput : s.refuses .put lastFetchKey = false) : Grants s where
  get_ok := ⟨s.entries.get? lastFetchKey, by simp [KeyValueStore.get, Store.FaultyStore.attempt, hget]⟩
  put_ok text := by simp [KeyValueStore.put, Store.FaultyStore.change, hput]

theorem Jobs.refused_happen_start (now : UInt64) (j : Jobs Store.FaultyStore) :
    (j.happen (.start now)).store.refused = j.store.refused := by
  have hchange : ∀ (t : Store.FaultyStore) access key e,
      (t.change access key e).2.refused = t.refused := by
    intro t access key e
    unfold Store.FaultyStore.change
    split <;> rfl
  simp only [happen, Progress.start, Progress.stamp]
  split
  · exact hchange _ _ _ _
  · rfl

/-- Two seconds between foreground fetches and a stored stamp that cannot be read. The clock goes back, a
fetch is pulling while others start, and the store refuses what does not concern the stamp. -/
theorem foregrounds_of_unsteady_clock :
    let s : Store.FaultyStore :=
      ⟨.ofList [(lastFetchKey, "never")], [(.get, endpointKey), (.put, statusKey)]⟩
    let f : Settings.Fetching := { cooldownSeconds := 2 }
    let hs := [.start 2000, .start 2001, .enqueued 1 (.ok false), .start 1000, .start 4001,
      .pulled 1 (.ok ()), .start 4002]
    let j := (Jobs.idle f.policy s).after hs
    f.foregroundMandatory = false ∧ (Jobs.idle f.policy s).Granted hs ∧
      Choice.foregrounds j.choices = [2001, 4002] ∧
      [0, 2001, 4002].IsChain (fun t u => t + 2000 < u) ∧ stampTime j.store = 4002 := by
  intro s f hs j
  have hm : f.foregroundMandatory = false := rfl
  have hg : (Jobs.idle f.policy s).Granted hs := by
    refine Jobs.Granted.of_keeps (P := fun t => t.refused = s.refused) ?_ rfl ?_
    · intro t ht
      apply grants_of_not_refused <;> rw [Store.FaultyStore.refuses, ht] <;> decide
    · intro a ha k hk
      rcases a with now | _ | _ | t
      · rw [Jobs.refused_happen_start, hk]
      · exact hk
      · exact hk
      · simp [hs] at ha
  have hf : Choice.foregrounds j.choices = [2001, 4002] := by decide +kernel
  obtain ⟨-, hchain, hstamp, -⟩ := foreground_iff_cooled_down f hm s hs hg
  have hstored : stampTime s = 0 := by decide +kernel
  have hlast : Choice.lastForeground 0 j.choices = 4002 := by rw [Choice.lastForeground, hf]; rfl
  rw [hstored, hf] at hchain
  rw [hstored, hlast] at hstamp
  exact ⟨hm, hg, hf, hchain, hstamp⟩

end PushKeeper.Fetch
