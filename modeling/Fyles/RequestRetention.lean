import Fyles.RequestCompletion

/-!
# What the registry keeps

A registration holds the whole request. It is of no use once the rest of the program has been told
how the request ended, and neither is the entry with which the worker waits for its timeout. Only
`remove_request`, which is called for a response, removes both. The three other ends leave something
behind: the handler of an error that gives up removes neither the registration nor the entry, and a
timeout removes the entry only.

A registration that an end has left behind stays for ever, unless it was a timeout that left it and
the response comes after all. So nothing is kept exactly as long as requests end with a response:
that is `Releases`, step by step, and `leakless_iff` for whole runs.

## Commands

The worker gets to know of `remove_request` from a command, and may not have handled it yet. What
counts is the entry that is left when the worker has handled the commands that are on the way
(`TimeoutRequestRegistryWorker.settled`).

## Main results

* `World.Released.move` — what was released stays so
* `leakless_step` — one step
* `leakless_iff` — whole runs
* `ends_that_leak` — what each of the other ends leaves behind
-/

namespace Fyles

open TimeoutRequestRegistryWorker

open Function (update_of_ne update_self)

/-! ### The worker -/

namespace TimeoutRequestRegistryWorker

variable {NodeId : Type} {worker worker' : TimeoutRequestRegistryWorker NodeId} {k : ℕ}

/-- The worker, when it has handled the commands. -/
def settled (worker : TimeoutRequestRegistryWorker NodeId) (commands : List (Command NodeId)) :
    TimeoutRequestRegistryWorker NodeId :=
  commands.foldl handleCommand worker

theorem settled_append (worker : TimeoutRequestRegistryWorker NodeId)
    (commands : List (Command NodeId)) (command : Command NodeId) :
    worker.settled (commands ++ [command]) = (worker.settled commands).handleCommand command :=
  List.foldl_append

/-- Handling the first command first makes no difference. -/
theorem settled_tail (worker : TimeoutRequestRegistryWorker NodeId)
    (commands : List (Command NodeId)) :
    (commands.head?.elim worker worker.handleCommand).settled commands.tail =
      worker.settled commands := by
  cases commands <;> rfl

/-- A worker that has fewer entries has fewer entries after a command. -/
theorem handleCommand_mono (command : Command NodeId)
    (h : ∀ k, worker'.register k = none → worker.register k = none) (k : ℕ)
    (hk : (worker'.handleCommand command).register k = none) :
    (worker.handleCommand command).register k = none := by
  cases command with
  | register j nodeId =>
    obtain ⟨hne, hk⟩ := of_update_eq hk (Option.some_ne_none nodeId)
    exact (update_of_ne hne _ _).trans (h k hk)
  | unRegister j =>
    rcases update_eq_cases hk with ⟨rfl, -⟩ | ⟨-, hk⟩
    · exact update_self _ _ _
    · exact update_eq_of_eq (h k hk)
  | resetTimeout j => exact h k hk

theorem settled_mono (commands : List (Command NodeId))
    (h : ∀ k, worker'.register k = none → worker.register k = none) :
    ∀ k, (worker'.settled commands).register k = none →
      (worker.settled commands).register k = none := by
  induction commands generalizing worker worker' with
  | nil => exact h
  | cons command commands ih => exact ih (handleCommand_mono command h)

/-- An entry whose timeout neither has started nor is about to start is not left. -/
theorem settled_of_timers {commands} (h : worker.timers commands k = 0) :
    (worker.settled commands).register k = none := by
  induction commands generalizing worker with
  | nil =>
    show worker.register k = none
    simpa [timers] using h
  | cons command commands ih =>
    have hle : (worker.handleCommand command).timers commands k ≤
        worker.timers (command :: commands) k := worker.timers_handleCommand (command :: commands) k
    exact ih (by omega)

theorem settled_pollNext {commands commands' expired timeout}
    (h : worker.pollNext commands expired = some (timeout, worker', commands'))
    (hk : (worker.settled commands).register k = none) :
    (worker'.settled commands').register k = none := by
  rw [← settled_tail] at hk
  cases expired with
  | none =>
    obtain ⟨-, rfl, rfl⟩ := by simpa using h
    exact hk
  | some j =>
    obtain ⟨r, hr, h⟩ := Option.map_eq_some_iff.mp h
    obtain ⟨nodeId, -, rfl⟩ := Option.map_eq_some_iff.mp hr
    obtain ⟨-, rfl, rfl⟩ := by simpa using h
    exact settled_mono _ (fun i hi => update_eq_of_eq hi) k hk

end TimeoutRequestRegistryWorker

namespace SessionSendReceive

variable {Request Session Res : Type}

/-! ### What is kept -/

variable (w : World Request Session Res)

/-- **Nothing is kept for an external id**: no request is registered with it, and the worker will
have no entry for it. -/
def World.Released (k : ℕ) : Prop :=
  (∀ r it, w.registry.register r = some it → it.externalId ≠ k) ∧
    (w.worker.settled w.registry.commands).register k = none

/-- How many requests are registered. -/
def World.retained : ℕ :=
  ((Finset.range w.nextRequestId).filter fun r => (w.registry.register r).isSome).card

/-- How many requests have an external id and have not ended. -/
def World.outstanding : ℕ :=
  ((Finset.range w.registry.nextExternalRequestId).filter fun k => k ∉ w.completed).card

/-- **Nothing is kept for a request that has ended**, and so no more requests are kept than have not
ended. -/
structure World.Leakless (w : World Request Session Res) : Prop where
  released : ∀ k ∈ w.completed, w.Released k
  retained_le : w.retained ≤ w.outstanding

/-- The handler of an error, which is about to read the request in the registry, will find it there
and may send it again. -/
def World.sendsAgain (r : ℕ) : Bool :=
  match w.stages r, (w.registry.register r).bind (·.data) with
  | .checked _ _ (.remoteError _), some _ => true
  | .checked _ _ (.localError _), some data => data.idempotent
  | _, _ => false

/-- **The event is not one of the ends that leave something behind**: an error of a request that was
sent again before, an error after which a request cannot be sent again, or is not, and a timeout of
a request that is registered. -/
def Releases : Event Request Session Res → Prop
  | .deliver _ r (.receiveError _) => ∀ it ∈ w.registry.register r, it.retryCount = 0
  | .fetch r _ => w.sendsAgain r
  | .resend _ session => session.isOk
  | .poll expired => ∀ k ∈ expired, ∀ r < w.nextRequestId,
      (w.registry.register r).map (·.externalId) ≠ some k
  | _ => True

instance (w : World Request Session Res) : ∀ e, Decidable (Releases w e)
  | .deliver _ r (.receiveError _) =>
    inferInstanceAs (Decidable (∀ it ∈ w.registry.register r, it.retryCount = 0))
  | .fetch r _ => inferInstanceAs (Decidable (w.sendsAgain r))
  | .resend _ session => inferInstanceAs (Decidable (session.isOk))
  | .poll expired => inferInstanceAs (Decidable (∀ k ∈ expired, ∀ r < w.nextRequestId,
      (w.registry.register r).map (·.externalId) ≠ some k))
  | .deliver _ _ (.response _) | .send .. | .register _ | .lose _ =>
    inferInstanceAs (Decidable True)

variable {w w' : World Request Session Res} {e : Event Request Session Res} {k r : ℕ}

/-! ### What was released stays so -/

namespace World.Released

/-- Registrations are as before or have new external ids, and the worker has no new entry. -/
theorem mono (h : w.Released k) (hlt : k < w.registry.nextExternalRequestId)
    (hregister : ∀ r it, w'.registry.register r = some it →
      (∃ r' it', w.registry.register r' = some it' ∧ it'.externalId = it.externalId) ∨
        it.externalId = w.registry.nextExternalRequestId)
    (hworker : (w.worker.settled w.registry.commands).register k = none →
      (w'.worker.settled w'.registry.commands).register k = none) : w'.Released k := by
  refine ⟨fun r it hit => ?_, hworker h.2⟩
  rcases hregister r it hit with ⟨r', it', hit', hext⟩ | hext
  · exact hext ▸ h.1 r' it' hit'
  · omega

theorem move (h : w.Released k) (hlt : k < w.registry.nextExternalRequestId)
    (hmove : Move w e w') : w'.Released k := by
  cases hmove with
  | registered hsend hdata hupdate =>
    refine h.mono hlt (fun r it hit => ?_) fun hnone => ?_
    · rcases update_eq_cases hit with ⟨-, hnew⟩ | ⟨-, hit⟩
      · exact .inr (Option.some.inj hnew ▸ rfl)
      · exact .inl ⟨r, it, hit, rfl⟩
    · rw [TimeoutRequestRegistry.insert, settled_append]
      exact (update_of_ne (Nat.ne_of_lt hlt) _ _).trans hnone
  | @moved requestId send old it hsend hconfig hit =>
    refine h.mono hlt (fun r j hj => .inl ?_) id
    rcases World.register_moved hj with ⟨-, rfl⟩ | ⟨-, -, hj⟩
    · exact ⟨old, j, hit, rfl⟩
    · exact ⟨r, j, hj, rfl⟩
  | @answered nodeId requestId decrypted it effect hstage hit heffect =>
    refine h.mono hlt (fun r j hj => .inl ?_) fun hnone => ?_
    · exact ⟨r, j, (of_update_eq hj nofun).2, rfl⟩
    · show ((w.worker.settled (w.registry.commands ++ [.unRegister it.externalId])).register k) = _
      rw [settled_append]
      exact update_eq_of_eq hnone
  | @fetched requestId _ nodeId externalId error it data effects hstage hit hdata hresend
      heffects =>
    refine h.mono hlt (fun r j hj => .inl ?_) fun hnone => ?_
    · rcases update_eq_cases hj with ⟨rfl, hnew⟩ | ⟨-, hj⟩
      · exact ⟨r, it, hit, Option.some.inj hnew ▸ rfl⟩
      · exact ⟨r, j, hj, rfl⟩
    · rw [TimeoutRequestRegistry.bumpRetries, settled_append]
      exact hnone
  | polled hpoll => exact ⟨h.1, settled_pollNext hpoll h.2⟩
  | _ => exact h

end World.Released

/-! ### One step -/

/-- If nothing is kept for requests that have ended, then no more are kept than have not ended. -/
theorem Linked.leakless (h : Linked w) (hreleased : ∀ k ∈ w.completed, w.Released k) :
    w.Leakless := by
  refine ⟨hreleased, ?_⟩
  refine Finset.card_le_card_of_injOn
    (fun r => ((w.registry.register r).map (·.externalId)).getD 0) ?_ ?_
  · intro r hr
    obtain ⟨it, hit⟩ := Option.isSome_iff_exists.mp (Finset.mem_filter.mp hr).2
    simp only [hit, Option.map_some, Option.getD_some, Finset.coe_filter, Set.mem_ofPred_eq,
      Finset.mem_range]
    exact ⟨h.registered_lt r it hit, fun hmem => (hreleased _ hmem).1 r it hit rfl⟩
  · intro r hr r' hr' hext
    obtain ⟨it, hit⟩ := Option.isSome_iff_exists.mp (Finset.mem_filter.mp hr).2
    obtain ⟨it', hit'⟩ := Option.isSome_iff_exists.mp (Finset.mem_filter.mp hr').2
    simp only [hit, hit', Option.map_some, Option.getD_some] at hext
    exact h.injective r r' it it' hit hit' hext

theorem World.not_leakless (r : ℕ) (it : RegisteredRequest Request Session)
    (hmem : it.externalId ∈ w.completed) (hit : w.registry.register r = some it) :
    ¬ w.Leakless :=
  fun h => (h.released _ hmem).1 r it hit rfl

theorem World.not_leakless_report {it effect}
    (heffect : effect.requestId = some (.ok it.externalId))
    (hit : w.registry.register r = some it) : ¬ (w.report r effect).Leakless := by
  refine World.not_leakless r it ?_ hit
  rw [World.completed_report heffect]
  exact List.mem_append_right _ (List.mem_singleton.mpr rfl)

variable [DecidableEq Session]

/-- After an error of a request that was not sent again before, the handler goes on. -/
theorem World.stages_receiveError {nodeId error it} (hit : w.registry.register r = some it)
    (hretry : it.retryCount = 0) (hstage : w.stages r = .inTransit)
    (hstep : w.step (.deliver nodeId r (.receiveError error)) = some w') :
    w'.stages r = .checked nodeId it.externalId error := by
  rw [World.step, hstage] at hstep
  obtain ⟨⟩ := hstep
  rw [World.receiveError, TimeoutRequestRegistry.checkRequestMetadata, hit]
  simp only [Option.map_some, hretry, gt_iff_lt, Nat.lt_irrefl, if_false, update_self]

/-- A request that is found and may be sent again is about to be. -/
theorem World.stages_fetch {currentSession} (hagain : w.sendsAgain r)
    (hstep : w.step (.fetch r currentSession) = some w') : w'.stages r ≠ .over := by
  rw [World.sendsAgain] at hagain
  split at hagain
  case h_1 nodeId externalId e data hstage hdata =>
    obtain ⟨it, hit, hdata⟩ := Option.bind_eq_some_iff.mp hdata
    rw [World.step, hstage] at hstep
    obtain ⟨⟩ := hstep
    simp only [World.fetchRequest, TimeoutRequestRegistry.getRequestForResendAfterSessionError,
      hit, hdata, update_self]
    simp
  case h_2 nodeId externalId e data hstage hdata =>
    obtain ⟨it, hit, hdata⟩ := Option.bind_eq_some_iff.mp hdata
    rw [World.step, hstage] at hstep
    obtain ⟨⟩ := hstep
    simp only [World.fetchRequest, TimeoutRequestRegistry.getRequestForResend, hit, hdata, hagain,
      if_true, Bool.not_true, Bool.false_eq_true, if_false, update_self]
    simp
  case h_3 => cases hagain

/-- **One step.** From a world in which nothing is kept for requests that have ended, exactly the
events that are not one of the other ends lead to such a world. -/
theorem leakless_step (hl : Linked w) (ht : Timed w) (h : w.Leakless)
    (hstep : w.step e = some w') : w'.Leakless ↔ Releases w e := by
  have hmove := World.step_move hstep
  have hl' := hl.move hmove
  have hold : ∀ k ∈ w.completed, w'.Released k :=
    fun k hk => (h.released k hk).move (ht.completed_lt k hk) hmove
  -- nothing is reported
  have hsame : (∀ k ∈ w'.completed, k ∈ w.completed) → w'.Leakless :=
    fun hc => hl'.leakless fun k hk => hold k (hc k hk)
  cases hmove with
  | @unknown nodeId requestId payload effect hstage hit heffect =>
    refine iff_of_true (hsame fun k hk => ?_) ?_
    · rwa [World.completed_report heffect, Except.toOption, Option.toList_none,
        List.append_nil] at hk
    · cases payload with
      | response => trivial
      | receiveError error =>
        intro it hit'
        cases hit.symm.trans hit'
  | @answered nodeId requestId decrypted it effect hstage hit heffect =>
    refine iff_of_true (hl'.leakless fun k hk => ?_) trivial
    rw [World.completed_report heffect, List.mem_append, Option.mem_toList] at hk
    rcases hk with hk | hk
    · exact hold k hk
    · obtain ⟨⟩ := hk
      refine ⟨fun r j hj hext => ?_, ?_⟩
      · obtain ⟨hne, hj⟩ := of_update_eq hj nofun
        exact hne (hl.injective r requestId j it hj hit hext)
      · show (w.worker.settled (w.registry.commands ++ [.unRegister _])).register _ = none
        rw [settled_append]
        exact update_self _ _ _
  | @refused nodeId requestId error it effect hstage hit heffect =>
    refine iff_of_false (World.not_leakless_report heffect hit) fun hok => ?_
    have hst := World.stages_receiveError hit (hok it hit) hstage hstep
    cases (update_self _ _ _).symm.trans hst
  | checked hstage hit hretry =>
    refine iff_of_true (hsame fun _ => id) fun it hit' => ?_
    obtain rfl := Option.mem_unique hit hit'
    exact hretry
  | unfetched hheld heffect =>
    obtain ⟨it, hit, rfl⟩ := hl.held _ _ hheld
    refine iff_of_false (World.not_leakless_report heffect hit) fun hok => ?_
    exact World.stages_fetch hok hstep (update_self _ _ _)
  | @fetched requestId _ nodeId externalId error it data effects hstage hit hdata hresend
      heffects =>
    refine iff_of_true (hsame fun k hk => ?_) ?_
    · rwa [World.completed_append (w := w) rfl, completes_of_silent heffects,
        List.append_nil] at hk
    · show w.sendsAgain requestId
      rw [World.sendsAgain, hstage, hit]
      rcases hresend with ⟨e, rfl⟩ | hid
      · simp [hdata]
      · cases error <;> simp [hdata, hid]
  | unresent hheld heffect =>
    obtain ⟨it, hit, rfl⟩ := hl.held _ _ hheld
    exact iff_of_false (World.not_leakless_report heffect hit) nofun
  | resent hstage => exact iff_of_true (hsame fun _ => id) rfl
  | @polled expired timeout worker commands hpoll =>
    obtain ⟨-, htimeout, hlt⟩ := timers_pollNext hpoll
    have hcompleted : ∀ k, k ∈ (w.polled timeout worker commands).completed ↔
        k ∈ w.completed ∨ k ∈ expired := by
      intro k
      rw [World.completed_polled, htimeout, List.mem_append, Option.mem_toList]
      exact Iff.rfl
    constructor
    · intro hleak k hk r hr hreg
      obtain ⟨it, hit, rfl⟩ := Option.map_eq_some_iff.mp hreg
      exact (hleak.released _ ((hcompleted _).mpr (.inr hk))).1 r it hit rfl
    · intro hok
      refine hl'.leakless fun k hk => ?_
      rcases (hcompleted k).mp hk with hk | hk
      · exact hold k hk
      · refine ⟨fun r it hit hext => ?_, ?_⟩
        · have hr : r < w.nextRequestId := by
            by_contra hge
            cases (hl.fresh r (Nat.le_of_not_lt hge)).2.2.symm.trans hit
          exact hok k hk r hr (Option.map_eq_some_iff.mpr ⟨it, hit, hext⟩)
        · -- the timeout has started once, and has passed
          refine settled_of_timers ?_
          have h1 := hlt k hk
          have h2 : w.worker.timers w.registry.commands k ≤ 1 := ht.timers_le k
          show worker.timers commands k = 0
          omega
  | _ => exact iff_of_true (hsame fun _ => id) trivial

/-! ### Whole runs -/

/-- **What the registry keeps.** In a run, nothing is ever kept for a request that has ended, and no
more requests are kept than have not ended, exactly if every event of the run is one of those that
leave nothing behind. -/
theorem leakless_iff {events : List (Event Request Session Res)}
    (hrun : (runFrom World.step (.new : World Request Session Res) events).isSome) :
    (∀ pre, pre <+: events → ∀ w : World Request Session Res,
        runFrom World.step .new pre = some w → w.Leakless) ↔
      Admitted World.step Releases (.new : World Request Session Res) events := by
  have hinv : ∀ {w w' : World Request Session Res} {e}, Linked w ∧ Timed w →
      w.step e = some w' → Linked w' ∧ Timed w' :=
    fun h hstep => ⟨h.1.step hstep, h.2.move h.1 (World.step_move hstep)⟩
  refine forall_prefix_iff_admitted hinv (fun h => leakless_step h.1 h.2)
    ⟨Linked.new, Timed.new⟩ ?_ hrun
  exact Linked.new.leakless fun k hk => nomatch hk

/-- A request is sent again and answered, and times out before the worker gets to know of the
answer. -/
def answeredLate : List (Event ℕ ℕ ℕ) :=
  [.send ⟨"peer"⟩ none 7 false (.ok 0), .register 0,
    .deliver ⟨"peer"⟩ 0 (.receiveError (.remoteError .missingSession)),
    .fetch 0 (some 0), .resend 0 (.ok 1), .register 1,
    .deliver ⟨"peer"⟩ 1 (.response (.ok (none, 8))), .poll none, .poll (some 0)]

/-- Such a request leaves nothing behind. -/
theorem leakless_iff_answered : (runFrom World.step (.new : World ℕ ℕ ℕ) answeredLate).isSome ∧
    ∀ pre, pre <+: answeredLate →
      ∀ w : World ℕ ℕ ℕ, runFrom World.step .new pre = some w → w.Leakless :=
  ⟨by decide, (leakless_iff (by decide)).mpr (by decide)⟩

/-- **The other ends leave something behind.** A request that was sent again fails a second time; a
request that must not be sent again fails; there is no session for sending a request again; and a
request times out. Each time the request has ended and is still registered, and after the first
three ends the worker has its entry as well. -/
theorem ends_that_leak : (∃ w : World ℕ ℕ ℕ, Run World.step (fun _ _ => True) .new
        [.send ⟨"peer"⟩ none 7 false (.ok 0), .register 0,
          .deliver ⟨"peer"⟩ 0 (.receiveError (.remoteError .missingSession)),
          .fetch 0 (some 0), .resend 0 (.ok 1), .register 1,
          .deliver ⟨"peer"⟩ 1 (.receiveError (.remoteError .missingSession)),
          .poll none, .poll none] w ∧
      w.completed = [0] ∧ ¬ w.Leakless ∧ w.worker.register 0 = some ⟨"peer"⟩) ∧
    (∃ w : World ℕ ℕ ℕ, Run World.step (fun _ _ => True) .new
        [.send ⟨"peer"⟩ none 7 false (.ok 0), .register 0,
          .deliver ⟨"peer"⟩ 0 (.receiveError (.localError (.transportError .connectionClosed))),
          .fetch 0 (some 0), .poll none] w ∧
      w.completed = [0] ∧ ¬ w.Leakless ∧ w.worker.register 0 = some ⟨"peer"⟩) ∧
    (∃ w : World ℕ ℕ ℕ, Run World.step (fun _ _ => True) .new
        [.send ⟨"peer"⟩ none 7 false (.ok 0), .register 0,
          .deliver ⟨"peer"⟩ 0 (.receiveError (.remoteError .missingSession)),
          .fetch 0 (some 0), .resend 0 (.error "no session"), .poll none] w ∧
      w.completed = [0] ∧ ¬ w.Leakless ∧ w.worker.register 0 = some ⟨"peer"⟩) ∧
    ∃ w : World ℕ ℕ ℕ, Run World.step (fun _ _ => True) .new
        [.send ⟨"peer"⟩ none 7 false (.ok 0), .register 0, .poll (some 0)] w ∧
      w.completed = [0] ∧ ¬ w.Leakless := by
  refine ⟨⟨_, Run.get_runFrom, by decide, ?_, by decide⟩,
    ⟨_, Run.get_runFrom, by decide, ?_, by decide⟩,
    ⟨_, Run.get_runFrom, by decide, ?_, by decide⟩,
    ⟨_, Run.get_runFrom, by decide, ?_⟩⟩
  · exact World.not_leakless 1 ⟨0, 1, some ⟨none, 7, false, 0⟩⟩ (by decide) rfl
  · exact World.not_leakless 0 ⟨0, 0, some ⟨none, 7, false, 0⟩⟩ (by decide) rfl
  · exact World.not_leakless 0 ⟨0, 1, some ⟨none, 7, false, 0⟩⟩ (by decide) rfl
  · exact World.not_leakless 0 ⟨0, 0, some ⟨none, 7, false, 0⟩⟩ (by decide) rfl

end SessionSendReceive

end Fyles
