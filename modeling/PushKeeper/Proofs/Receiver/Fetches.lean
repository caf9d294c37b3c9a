import PushKeeper.Proofs.Receiver.Tasks
import PushKeeper.Proofs.Receiver.Writers

namespace PushKeeper.Receiver

open Fetch (Attempt Exchange Jobs Policy Progress)
open Store (Access Honest KeyValueStore)
open Store.Values

section

variable {σ : Type}

def fetching (r : Receiver σ) : Option InFlight :=
  r.inFlight.filter (·.kind = .fetch)

theorem fetching_of_ofFetch? {r : Receiver σ} {p : Progress} (h : r.inFlight = InFlight.ofFetch? p) :
    r.fetching = InFlight.ofFetch? p := by
  rw [fetching, h]
  cases p <;> rfl

end

variable {σ : Type} [KeyValueStore σ] [Honest σ]

def begin? : Happening σ → Receiver σ → Option Kind
  | .act a, r => begins a r
  | _, _ => none

def heard : Happening σ → Receiver σ → List Exchange
  | .act (.answer reply), r => if r.fetching.any (·.fits reply) then [.answered reply] else []
  | _, _ => []

def exchanges (h : Happening σ) (r : Receiver σ) : List Exchange :=
  heard h r ++
    if (happen h r).fetching = r.fetching then []
    else (happen h r).fetching.toList.map fun task => .asked task.call

inductive Pace (r : Receiver σ) : Happening σ → Receiver σ → Prop
  | began (hw : r.worker.current? = some .fetch) (hf : r.inFlight = none) :
      Pace r (.act .work) (r.stamped.await (.enqueuing r.nextStrategy))
  | answered {p : Progress} {reply : Reply} {r' : Receiver σ} (hp : r.inFlight = InFlight.ofFetch? p)
      (h : r.fetching.any (·.fits reply)) (hf : r'.inFlight = InFlight.ofFetch? (p.onReply reply))
      (hs : r'.store = r.store) : Pace r (.act (.answer reply)) r'
  | apart {h : Happening σ} {r' : Receiver σ} (hb : begin? h r ≠ some .fetch) (hh : heard h r = [])
      (hf : r'.fetching = r.fetching) (hs : Fetch.stampText r'.store = Fetch.stampText r.store) :
      Pace r h r'

theorem stampText_happen {h : Happening σ} {r : Receiver σ} (hb : begin? h r ≠ some .fetch) :
    Fetch.stampText (happen h r).store = Fetch.stampText r.store := by
  by_contra hne
  have hw : Writes r h lastFetchKey ((happen h r).entries.get? lastFetchKey) := writes_of_ne hne
  generalize hk : lastFetchKey = key at hw
  generalize (happen h r).entries.get? key = value at hw
  cases hw with
  | stamped hw hf hs => simp [begin?, begins, hw, hf, Job.kind] at hb
  | _ => simp [lastFetchKey, endpointKey, statusKey] at hk

omit [KeyValueStore σ] [Honest σ] in
theorem fetching_perform {part : Access (Receiver σ) (Option InFlight)} {r : Receiver σ}
    (h : ∀ task, (part.on r).1 = .ok (some task) → task.kind = .registration) :
    (r.perform part).fetching = none := by
  unfold perform fetching
  split
  next task r' hr => simp [h task (by rw [hr])]
  next => rfl
  next => rfl

theorem pace_work (r : Receiver σ) : Pace r (.act .work) (act .work r) := by
  cases hw : r.worker.current? with
  | none =>
    have hb : begin? (.act .work : Happening σ) r ≠ some .fetch := by simp [begin?, begins, hw]
    refine .apart hb rfl ?_ (stampText_happen hb)
    rw [act_work_of_rest hw]
    rfl
  | some job =>
    cases hf : r.inFlight with
    | some task =>
      have he : act .work r = r := by simp [act, advance, hw, hf]
      rw [he]
      exact .apart (by simp [begin?, begins, hf]) rfl rfl rfl
    | none =>
      have he : act .work r = r.perform job.start := by simp [act, advance, hw, hf]
      by_cases hj : job = .fetch
      · subst hj
        rw [he]
        exact .began hw hf
      · have hk : job.kind = .registration := by cases job <;> first | rfl | exact absurd rfl hj
        have hb : begin? (.act .work : Happening σ) r ≠ some .fetch := by simp [begin?, begins, hw, hf, hk]
        refine .apart hb rfl ?_ (stampText_happen hb)
        rw [he, fetching_perform fun task ht => (kind_of_start ht).trans hk, fetching, hf]
        rfl

theorem pace_answer (r : Receiver σ) (reply : Reply) :
    Pace r (.act (.answer reply)) (act (.answer reply) r) := by
  have hb : begin? (.act (.answer reply) : Happening σ) r ≠ some .fetch := by simp [begin?, begins]
  cases hf : r.inFlight with
  | none =>
    have he : act (.answer reply) r = r := by simp [act, answer, hf]
    rw [he]
    exact .apart hb (by simp [heard, fetching, hf]) rfl rfl
  | some task =>
    have he : act (.answer reply) r = r.perform (task.resume reply) := by simp [act, answer, hf]
    cases hk : task.kind with
    | registration =>
      have hfetching : r.fetching = none := by simp [fetching, hf, hk]
      refine .apart hb (by simp [heard, hfetching]) ?_ (stampText_happen hb)
      rw [he, hfetching, fetching_perform fun task' ht => (kind_of_resume ht).trans hk]
    | fetch =>
      obtain ⟨p, hp⟩ := exists_ofFetch? hk
      rw [he, resume_ofFetch? hp]
      by_cases hfit : task.fits reply
      · refine .answered (hf.trans hp.symm) ?_ (inFlight_perform_pure _ _) (store_perform _ _)
        simpa [fetching, hf, hk] using hfit
      · have hsame : p.onReply reply = p := Progress.onReply_of_not_fits hp (by simpa using hfit)
        refine .apart hb (by simpa [heard, fetching, hf, hk] using hfit) ?_ (by rw [store_perform]; rfl)
        rw [hsame, fetching, inFlight_perform_pure, hp, fetching, hf]

theorem pace (r : Receiver σ) (h : Happening σ) : Pace r h (happen h r) := by
  cases h with
  | act a =>
    cases a with
    | work => exact pace_work r
    | answer reply => exact pace_answer r reply
    | handle event =>
      have hb : begin? (.act (.handle event) : Happening σ) r ≠ some .fetch := by simp [begin?, begins]
      refine .apart hb rfl ?_ (stampText_happen hb)
      exact congrArg (Option.filter _) (asks_request rfl r).inFlight_eq
    | retry => exact .apart (by simp [begin?, begins]) rfl rfl rfl
    | airGapped enabled =>
      have hb : begin? (.act (.airGapped enabled) : Happening σ) r ≠ some .fetch := by
        simp [begin?, begins]
      refine .apart hb rfl ?_ (stampText_happen hb)
      exact congrArg (Option.filter _) (asks_request rfl r).inFlight_eq
    | clock time | delivery d => exact .apart (by simp [begin?, begins]) rfl rfl rfl
  | refusals s =>
    refine .apart (by simp [begin?]) rfl ?_ (stampText_happen (by simp [begin?]))
    simp only [happen]
    split <;> rfl
  | drop => exact .apart (by simp [begin?]) rfl rfl rfl

theorem policy_happen (h : Happening σ) (r : Receiver σ) : (happen h r).policy = r.policy := by
  cases h with
  | act a => exact policy_act a r
  | refusals s =>
    simp only [happen]
    split <;> rfl
  | drop => rfl

structure Tracks (r : Receiver σ) (j : Jobs σ) : Prop where
  policy_eq : j.policy = r.policy
  store_eq : j.store = r.store
  fetching : ∀ task, r.fetching = some task →
    ∃ (n : Nat) (job : Fetch.Job), j.jobs[n]? = some job ∧ InFlight.ofFetch? job.progress = some task

theorem Tracks.happen {r : Receiver σ} {j : Jobs σ} (ht : Tracks r j) (h : Happening σ) :
    ∃ f, Tracks (happen h r) (j.happen f) ∧
      exchanges h r = (Jobs.exchanges f j).map Prod.snd ∧
      (j.happen f).jobs.length = j.jobs.length + (begin? h r).toList.count .fetch := by
  have hpace := pace r h
  have hpolicy := policy_happen h r
  unfold exchanges
  generalize Receiver.happen h r = r' at hpace hpolicy
  cases hpace with
  | began hw hf =>
    have hstrategy : Progress.strategyAt j.policy r.clock.toNat j.store = r.nextStrategy := by
      rw [ht.policy_eq, ht.store_eq]
      rfl
    refine ⟨.start r.clock, ⟨ht.policy_eq, ?_, ?_⟩, ?_, ?_⟩
    · show Progress.stamp (Progress.strategyAt j.policy r.clock.toNat j.store) _ _ = _
      rw [hstrategy, ht.store_eq]
      rfl
    · rintro task htask
      obtain rfl : .enqueuing r.nextStrategy = task := Option.some.inj htask
      refine ⟨j.jobs.length, ⟨r.clock, .enqueuing r.nextStrategy⟩, ?_, rfl⟩
      simp [Jobs.happen, Progress.start, hstrategy]
    · have hfetching : r.fetching = none := by simp [Receiver.fetching, hf]
      rw [hfetching, Jobs.exchanges, Progress.start, hstrategy]
      rfl
    · simp [Jobs.happen, begin?, begins, hw, hf, Job.kind]
  | @answered p reply r' hp h hf hs =>
    have hfetching := fetching_of_ofFetch? hp
    rw [hfetching] at h
    obtain ⟨task, htask, -⟩ := (Option.any_eq_true _ _).1 h
    obtain ⟨n, job, hn, hjob⟩ := ht.fetching task (hfetching.trans htask)
    obtain rfl := ofFetch?_inj hjob htask
    obtain ⟨f, hf'⟩ := Jobs.exists_happen_eq (σ := σ) h n
    obtain ⟨hhappen, hexchanges⟩ := hf' j
    refine ⟨f, ⟨?_, ?_, ?_⟩, ?_, ?_⟩
    · rw [hhappen, hpolicy]
      exact ht.policy_eq
    · rw [hhappen, hs]
      exact ht.store_eq
    · intro task' htask'
      rw [fetching_of_ofFetch? hf] at htask'
      refine ⟨n, job.advance (.onReply reply), ?_, htask'⟩
      rw [hhappen]
      simp [hn]
    · rw [hexchanges, Jobs.exchange, hn, fetching_of_ofFetch? hf, hfetching,
        if_neg (Progress.ofFetch?_onReply_ne h)]
      simp [heard, hfetching, Progress.exchange, h, Progress.asks, Function.comp_def]
    · rw [hhappen, List.length_modify]
      rfl
  | apart hb hh hf hs =>
    have hj : j.happen (.others r'.store) = { j with store := r'.store } :=
      if_pos (by rw [hs, ht.store_eq])
    refine ⟨.others r'.store, ⟨?_, ?_, ?_⟩, ?_, ?_⟩
    · rw [hj, hpolicy]
      exact ht.policy_eq
    · rw [hj]
    · rw [hj, hf]
      exact ht.fetching
    · rw [hh, if_pos hf]
      rfl
    · have hcount : (begin? h r).toList.count .fetch = 0 := by
        rw [List.count_eq_zero, Option.mem_toList]
        exact hb
      rw [hj, hcount]
      rfl

def exchanged (r : Receiver σ) (hs : List (Happening σ)) : List Exchange :=
  Run.notes happen exchanges r hs

def begun (r : Receiver σ) (hs : List (Happening σ)) : List Kind :=
  Run.notes happen (fun h r => (begin? h r).toList) r hs

theorem exists_tracks (name : String) (s : σ) (clock : UInt64) (policy : Policy)
    (delivery : Fetch.Delivery) (hs : List (Happening σ)) :
    ∃ fs, Tracks ((new name s clock policy delivery).afterAll hs) ((Jobs.idle policy s).after fs) ∧
      (new name s clock policy delivery).exchanged hs = ((Jobs.idle policy s).log fs).map Prod.snd ∧
      ((Jobs.idle policy s).after fs).jobs.length =
        ((new name s clock policy delivery).begun hs).count .fetch := by
  induction hs using List.reverseRecOn with
  | nil =>
    refine ⟨[], ⟨rfl, rfl, ?_⟩, rfl, rfl⟩
    intro task htask
    cases htask
  | append_singleton hs h ih =>
    obtain ⟨fs, htracks, hlog, hbegun⟩ := ih
    obtain ⟨f, htracks', hexchanges, hlength⟩ := htracks.happen h
    refine ⟨fs ++ [f], ?_, ?_, ?_⟩
    · rw [Jobs.after_concat, afterAll, Run.after_append]
      exact htracks'
    · rw [Jobs.log_concat, List.map_append, ← hlog, ← hexchanges, exchanged, Run.notes_append,
        Run.notes_singleton]
      rfl
    · rw [Jobs.after_concat, hlength, hbegun, begun, begun, Run.notes_append, Run.notes_singleton,
        List.count_append]
      rfl

theorem paired_afterAll {r : Receiver σ} (hr : Paired r) (hs : List (Happening σ)) :
    Paired (r.afterAll hs) :=
  Run.after_keeps hr fun h _ _ hr => hr.happen h

/-- However many fetches are under way, whatever the store refuses and however calls are answered:

* each fetch is somewhere in its one attempt, with the strategy that is right for the time since the last
  foreground fetch, or since zero if the store does not tell when that was;
* so the fetch service is asked as often as a fetch starts, and a pull made as often as it refuses.

The fetches of a receiver are such a run, and no part of their tasks fails. -/
theorem attempted_once (policy : Policy) (s : σ) :
    (∀ hs : List (Fetch.Happening σ),
      let j := (Jobs.idle policy s).after hs
      let log := (Jobs.idle policy s).log hs
      (∀ (n : Nat) (job : Fetch.Job), j.jobs[n]? = some job →
        Attempt job.progress (Jobs.own n log) ∧
        ∃ before, before ++ [.start job.time] <+: hs ∧
          ((Jobs.idle policy s).after before).jobs.length = n ∧
          job.progress.strategy = policy.select
            (job.time.toNat - Jobs.toldTime ((Jobs.idle policy s).after before).store)) ∧
      (∀ n, j.jobs.length ≤ n → Jobs.own n log = []) ∧
      j.jobs.length = hs.countP (·.isStart) ∧
      log.countP (·.2.isEnqueue) = j.jobs.length ∧
      log.countP (·.2.isPull) = log.countP (·.2.isRefusal)) ∧
    ∀ (name : String) (clock : UInt64) (delivery : Fetch.Delivery) (hs : List (Happening σ)),
      let r := new name s clock policy delivery
      let log := r.exchanged hs
      (∃ fs, log = ((Jobs.idle policy s).log fs).map Prod.snd ∧
        ((Jobs.idle policy s).after fs).jobs.length = (r.begun hs).count .fetch) ∧
      log.countP (·.isEnqueue) = (r.begun hs).count .fetch ∧
      log.countP (·.isPull) = log.countP (·.isRefusal) ∧
      ∀ before a rest part, hs = before ++ .act a :: rest →
        (r.afterAll before).worker.current? = some .fetch →
        a.part? (r.afterAll before) = some part → ∃ wait, (part.on (r.afterAll before)).1 = .ok wait := by
  constructor
  · intro hs j log
    have hattempted := Jobs.attempted policy s hs
    refine ⟨fun n job hn => ⟨hattempted.attempt n job hn, Jobs.strategy_of_getElem? hn⟩, ?_⟩
    exact ⟨hattempted.own_eq_nil, Jobs.length_jobs_after policy s hs, hattempted.enqueues,
      hattempted.pulls⟩
  · intro name clock delivery hs r log
    obtain ⟨fs, -, hlog, hbegun⟩ := exists_tracks name s clock policy delivery hs
    have hattempted := Jobs.attempted policy s fs
    have hcount : ∀ p, log.countP p = ((Jobs.idle policy s).log fs).countP (p ·.2) :=
      fun p => (congrArg (List.countP p) hlog).trans (List.countP_map ..)
    refine ⟨⟨fs, hlog, hbegun⟩, ?_, ?_, ?_⟩
    · rw [hcount, ← hbegun]
      exact hattempted.enqueues
    · rw [hcount, hcount]
      exact hattempted.pulls
    · intro before a rest part _ hw hp
      have hr : Paired r := fun _ htask => nomatch htask
      exact part_ok (paired_afterAll hr before) hw hp

/-- Two fetches wait at once and the store does not tell when the last foreground fetch was. The first is
refused, and the pull it makes instead fails; the second is accepted while the first is pulling. -/
theorem attempted_once_of_unreadable_stamp :
    let s : Store.FaultyStore := ⟨.ofList [(lastFetchKey, "4000")], [(.get, lastFetchKey)]⟩
    let policy : Policy := ⟨false, true, 3000⟩
    let hs := [.start 4001, .start 2000, .enqueued 0 (.ok false), .enqueued 1 (.ok true),
      .pulled 0 (.error (.hook (.pullExited (some 1) "")))]
    let j := (Jobs.idle policy s).after hs
    let log := (Jobs.idle policy s).log hs
    j.jobs[0]? = some ⟨4001, .finished ⟨.foreground, false, true⟩⟩ ∧
      j.jobs[1]? = some ⟨2000, .finished ⟨.background, true, false⟩⟩ ∧
      Attempt (.finished ⟨.foreground, false, true⟩) (Jobs.own 0 log) ∧
      Attempt (.finished ⟨.background, true, false⟩) (Jobs.own 1 log) ∧
      log.countP (·.2.isEnqueue) = 2 ∧ log.countP (·.2.isPull) = log.countP (·.2.isRefusal) := by
  intro s policy hs j log
  have hfirst : j.jobs[0]? = some ⟨4001, .finished ⟨.foreground, false, true⟩⟩ := rfl
  have hsecond : j.jobs[1]? = some ⟨2000, .finished ⟨.background, true, false⟩⟩ := rfl
  obtain ⟨hattempt, -, hstarted, hasked, hpulled⟩ := (attempted_once policy s).1 hs
  exact ⟨hfirst, hsecond, (hattempt 0 _ hfirst).1, (hattempt 1 _ hsecond).1, hasked.trans hstarted, hpulled⟩

end PushKeeper.Receiver
