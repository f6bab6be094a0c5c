/-
  DockerProxy.Proxy.Snapshots — one configuration for each request.

  A request reads the configuration once, and reloads may come between its steps.  In every
  interleaving

    • `interleaved_mediation` — Docker is sent nothing that a configuration in force did
      not clear;
    • `interleaved_verdicts` — one configuration lets a caller in and judges the request;

  and who came after some point of the run meets the configuration in force there, or one
  swapped in later.
-/
import DockerProxy.Proxy.Interleaved

namespace DockerProxy.Proxy

open DockerProxy.Lib DockerProxy.Path DockerProxy.Limiter DockerProxy.Rules

variable {deps : Externals}

/-! ## §1. What a configuration permits. -/

/-- **The configuration lets the visitor send this**: it is what was cleared, and the rules
that are no rate limits allow it in any state of the limiter. -/
structure Permits (st₀ : ProxyState) (config : ProxyConfig) (v : Visit deps)
    (ctx : EvaluationContext) (out : ProxiedRequest) : Prop where
  cleared : Cleared st₀ config v ctx out.body
  sends : Sends deps v.req v.docker ctx.path out.body out
  rules : ∀ rc, (evaluateRequestDetailed deps (unlimited (config.rules.getD [])) ctx rc).1.result =
    .allow

theorem permits_of_cleared {st₀ : ProxyState} {config : ProxyConfig} {v : Visit deps}
    {ctx : EvaluationContext} {bytes : List UInt8} {out : ProxiedRequest}
    (hcleared : Cleared st₀ config v ctx bytes)
    (hsends : Sends deps v.req v.docker ctx.path bytes out) : Permits st₀ config v ctx out := by
  obtain rfl := hsends.body
  obtain ⟨decision, hdecision, hallow⟩ := hcleared.rules
  exact ⟨hcleared, hsends, allow_of_canDecide hdecision hallow⟩

/-- One of these visitors may send this, by one of these configurations. -/
def SentBy (st₀ : ProxyState) (configs : List ProxyConfig) (visits : List (Visit deps))
    (out : ProxiedRequest) : Prop :=
  ∃ v ∈ visits, ∃ config ∈ configs, ∃ ctx, Permits st₀ config v ctx out

/-! ## §2. A point of the run. -/

section

variable {s : Shared} {past later : List (PoolEvent (Visit deps) Outside)}

/-- **What Docker was sent is accounted for**, when the run starts in `s`: it had been sent
before, or by those who came up to some point of the run, or by those who came after it. -/
def Mediated (s : Shared) (past later : List (PoolEvent (Visit deps) Outside)) (s' : Shared) :
    Prop :=
  ∀ out ∈ s'.wire,
    out ∈ s.wire ∨ SentBy s.proxy (inForce s (past ++ later)) (started past) out ∨
      SentBy s.proxy (inForce (interleave s past).state later) (started later) out

theorem mediated_send {s' : Shared} (h : Mediated s past later s') {out : ProxiedRequest}
    (hout : SentBy s.proxy (inForce s (past ++ later)) (started past) out ∨
      SentBy s.proxy (inForce (interleave s past).state later) (started later) out) :
    Mediated s past later (s'.send out) := by
  intro out' hmem
  obtain hmem | hmem := List.mem_append.mp hmem
  · exact h out' hmem
  · obtain rfl := List.mem_singleton.mp hmem
    exact Or.inr hout

/-- The invariant up to the point. -/
def Before (s : Shared) (past later : List (PoolEvent (Visit deps) Outside)) : Shared → Prop :=
  Holds s.proxy (· ∈ inForce s (past ++ later)) (Mediated s past later)

/-- The invariant after it: there the configuration is one of fewer. -/
def After (s : Shared) (past later : List (PoolEvent (Visit deps) Outside)) (s' : Shared) : Prop :=
  Before s past later s' ∧ s'.proxy.config ∈ inForce (interleave s past).state later

theorem stable_before {E : AuditEvent → Prop} :
    Stable s.proxy (· ∈ inForce s (past ++ later)) E (Before s past later) :=
  stable_holds (fun _ _ h => h) (fun _ _ _ h => h) (fun _ _ h => h)

theorem stable_after {E : AuditEvent → Prop} :
    Stable s.proxy (· ∈ inForce (interleave s past).state later) E (After s past later) :=
  stable_before.narrow

theorem before_effect {s' : Shared} (h : Before s past later s') {o : Outside}
    (ho : o ∈ outsides (past ++ later)) : Before s past later (o.effect s') := by
  refine Holds.effect h (fun config hreload => ?_) ?_
  · rw [hreload] at ho
    exact List.mem_cons_of_mem _ (mem_reloaded ho)
  · unfold Mediated
    rw [wire_effect]
    exact h.kept

theorem after_effect {s' : Shared} (h : After s past later s') {o : Outside}
    (ho : o ∈ outsides later) : After s past later (o.effect s') := by
  refine ⟨before_effect h.1 ?_, config_effect h.2 fun config hreload => ?_⟩
  · unfold outsides at ho ⊢
    rw [List.filterMap_append]
    exact List.mem_append_right _ ho
  · rw [hreload] at ho
    exact List.mem_cons_of_mem _ (mem_reloaded ho)

/-- Who comes up to the point is judged by a configuration of the run. -/
theorem goes_before {v : Visit deps} (hv : v ∈ started past) :
    Goes (Before s past later) v.key v.steps none [] fun reply _ _ =>
      v ∈ started past ∧ Judged s.proxy (· ∈ inForce s (past ++ later)) v reply := by
  refine goes_mono (keeps_visit stable_before
    (door_open (stable_before (E := v.Makes)) (fun s' hs' => hs'.auth hs'.kept)
      fun s' hs' => hs'.auth hs'.kept)
    fun config ctx bytes out hconfig hcleared hsends s' hs' => hs'.send (mediated_send hs'.kept ?_))
    fun _ _ _ h => ⟨hv, h.2.2.2⟩
  exact Or.inl ⟨v, hv, config, hconfig, ctx, permits_of_cleared hcleared hsends⟩

/-- Who comes after it is judged by one in force there, or later. -/
theorem goes_later {v : Visit deps} (hv : v ∈ started later) :
    Goes (After s past later) v.key v.steps none [] fun reply _ _ =>
      v ∈ started later ∧
        Judged s.proxy (· ∈ inForce (interleave s past).state later) v reply := by
  refine goes_mono (keeps_visit stable_after
    (door_open (stable_after (E := v.Makes)) (fun s' hs' => ⟨hs'.1.auth hs'.1.kept, hs'.2⟩)
      fun s' hs' => ⟨hs'.1.auth hs'.1.kept, hs'.2⟩)
    fun config ctx bytes out hconfig hcleared hsends s' hs' =>
      ⟨hs'.1.send (mediated_send hs'.1.kept ?_), hs'.2⟩)
    fun _ _ _ h => ⟨hv, h.2.2.2⟩
  exact Or.inr ⟨v, hv, config, hconfig, ctx, permits_of_cleared hcleared hsends⟩

/-- **A run with a point in it**: the invariant holds in the end, and who has a reply came
before the point, and was judged by some configuration, or came after it, and was judged by
one in force there or later. -/
theorem after_run (s : Shared) (past later : List (PoolEvent (Visit deps) Outside)) :
    After s past later (interleave s (past ++ later)).state ∧
      ∀ v reply, (interleave s (past ++ later)).Returned v reply →
        v ∈ started past ∧ Judged s.proxy (· ∈ inForce s (past ++ later)) v reply ∨
          v ∈ started later ∧
            Judged s.proxy (· ∈ inForce (interleave s past).state later) v reply := by
  have hfirst : Before s past later s :=
    ⟨.refl _, List.mem_cons_self, fun out hout => Or.inl hout⟩
  have hpast : ∀ o ∈ outsides past, ∀ s', Before s past later s' →
      Before s past later (o.effect s') ∧
        (o.effect s').account = s'.account + tallied none o.entries := by
    intro o ho s' hs'
    refine ⟨before_effect hs' ?_, account_effect s' o⟩
    unfold outsides at ho ⊢
    rw [List.filterMap_append]
    exact List.mem_append_left _ ho
  obtain ⟨hbefore, g, horder, haccount⟩ :=
    Pool.pool_inOrder Visit.steps Outside.effect hfirst (fun v hv => goes_before hv) hpast
  -- nobody under way touches the configuration, so the narrower invariant holds for them, too
  have horder := Pool.inOrder_and
    (J := fun s' => s'.proxy.config ∈ inForce (interleave s past).state later) horder
    fun e _ => Or.inr fun s₁ s₂ halone hconfig => by
      rw [halone.1]
      exact hconfig
  have hafter : After s past later (interleave s past).state := ⟨hbefore, List.mem_cons_self⟩
  rw [← add_zero g] at haccount
  obtain ⟨hend, old, new, _, _, hprograms, -, hold, hnew, -⟩ :=
    Pool.pool_run Visit.steps Outside.effect later (fun v hv => goes_later hv)
      (fun o ho s' hs' => ⟨after_effect hs' ho, account_effect s' o⟩)
      (interleave s past).state _ [] _ g 0 hafter horder .nil haccount
  rw [List.append_nil] at hend hprograms
  have hrun : interleave s (past ++ later) =
      run (Pool.step Visit.steps Outside.effect) (interleave s past) later :=
    run_append _ _ _ _
  rw [hrun]
  refine ⟨hend, fun v reply hreply => ?_⟩
  have hreply : (v, Prog.ret reply) ∈ old ++ new := hprograms ▸ hreply
  obtain hreply | hreply := List.mem_append.mp hreply
  · obtain ⟨_, _, _, hjudged, -⟩ := Pool.keeps_of_inOrder hold hreply
    exact Or.inl hjudged
  · obtain ⟨_, _, _, hjudged, -⟩ := Pool.keeps_of_inOrder hnew hreply
    exact Or.inr hjudged

end

/-! ## §3. Docker and the verdicts. -/

/-- **Complete mediation, in every interleaving**: whatever the order of steps, Docker is
sent nothing that a configuration in force did not clear for the visitor who sends it; and
who came after some point of the run is judged by the configuration in force there, or by
one swapped in later. -/
theorem interleaved_mediation (s : Shared) (past later : List (PoolEvent (Visit deps) Outside)) :
    ∀ out ∈ (interleave s (past ++ later)).state.wire,
      out ∈ s.wire ∨ SentBy s.proxy (inForce s (past ++ later)) (started past) out ∨
        SentBy s.proxy (inForce (interleave s past).state later) (started later) out := by
  obtain ⟨⟨hbefore, -⟩, -⟩ := after_run s past later
  exact hbefore.kept

/-- What the inspections across a reload send is permitted. -/
theorem interleaved_mediation_inspection :
    ∃ out ∈ (interleave ⟨redactingState, []⟩ (beforeReload ++ afterReload)).state.wire,
      SentBy redactingState (inForce ⟨redactingState, []⟩ (beforeReload ++ afterReload))
          (started beforeReload) out ∨
        SentBy redactingState
          (inForce (interleave ⟨redactingState, []⟩ beforeReload).state afterReload)
          (started afterReload) out := by
  have hsent : (interleave ⟨redactingState, []⟩ (beforeReload ++ afterReload)).state.wire.length =
      1 := by decide +kernel
  obtain ⟨out, hout⟩ := List.length_eq_one_iff.mp hsent
  have hwire : out ∈ (interleave ⟨redactingState, []⟩ (beforeReload ++ afterReload)).state.wire := by
    rw [hout]
    exact List.mem_cons_self
  refine ⟨out, hwire, ?_⟩
  obtain h | h :=
    interleaved_mediation ⟨redactingState, []⟩ beforeReload afterReload out hwire
  · exact absurd h List.not_mem_nil
  · exact h

/-- **No verdict mixes configurations, in any interleaving**: who has a reply from the rules
was let in, asked about and judged by one and the same configuration, and what it denied was
not sent; it is one in force in the run, and for who came after some point of the run the
one in force there, or one swapped in later. -/
theorem interleaved_verdicts {s : Shared} {past later : List (PoolEvent (Visit deps) Outside)}
    {v : Visit deps} {reply : Reply}
    (hreply : (interleave s (past ++ later)).Returned v reply)
    {ctx : EvaluationContext} {decision : RuleDecision}
    (hevaluated : reply.evaluated = some (ctx, decision)) :
    ∃ config bytes, Asked s.proxy config v ctx bytes ∧
      Verdict deps (config.rules.getD []) ctx decision reply ∧
      (v ∈ started past ∧ config ∈ inForce s (past ++ later) ∨
        v ∈ started later ∧ config ∈ inForce (interleave s past).state later) := by
  have hjudged : ∀ {C}, Judged s.proxy C v reply → ∃ config, C config ∧ ∃ bytes,
      Asked s.proxy config v ctx bytes ∧
        Verdict deps (config.rules.getD []) ctx decision reply := by
    intro C hjudged
    obtain hnone | ⟨config, hconfig, ctx', bytes, decision', hasked, hverdict⟩ := hjudged
    · exact absurd (hevaluated.symm.trans hnone) (by simp)
    · obtain ⟨rfl, rfl⟩ :=
        Prod.mk.inj (Option.some.inj (hevaluated.symm.trans hverdict.evaluated))
      exact ⟨config, hconfig, bytes, hasked, hverdict⟩
  obtain ⟨hv, hpast⟩ | ⟨hv, hlater⟩ := (after_run s past later).2 v reply hreply
  · obtain ⟨config, hconfig, bytes, hasked, hverdict⟩ := hjudged hpast
    exact ⟨config, bytes, hasked, hverdict, Or.inl ⟨hv, hconfig⟩⟩
  · obtain ⟨config, hconfig, bytes, hasked, hverdict⟩ := hjudged hlater
    exact ⟨config, bytes, hasked, hverdict, Or.inr ⟨hv, hconfig⟩⟩

/-- The verdict on the inspection that read its configuration before the reload. -/
theorem interleaved_verdicts_inspection :
    ∃ (v : Visit Externals.sample) (reply : Reply) (ctx : EvaluationContext)
      (decision : RuleDecision) (config : ProxyConfig) (bytes : List UInt8),
      (interleave ⟨redactingState, []⟩ (beforeReload ++ afterReload)).Returned v reply ∧
        Asked redactingState config v ctx bytes ∧
        Verdict Externals.sample (config.rules.getD []) ctx decision reply ∧
        (v ∈ started beforeReload ∧
            config ∈ inForce ⟨redactingState, []⟩ (beforeReload ++ afterReload) ∨
          v ∈ started afterReload ∧
            config ∈ inForce (interleave ⟨redactingState, []⟩ beforeReload).state afterReload) := by
  have hany : ((interleave ⟨redactingState, []⟩ (beforeReload ++ afterReload)).results.any
      fun e => e.2.evaluated.isSome) = true := by decide +kernel
  obtain ⟨⟨v, reply⟩, hmem, hsome⟩ := List.any_eq_true.mp hany
  obtain ⟨⟨ctx, decision⟩, hevaluated⟩ := Option.isSome_iff_exists.mp hsome
  have hreply := Pool.returned_of_mem_results hmem
  obtain ⟨config, bytes, hasked, hverdict, hconfig⟩ := interleaved_verdicts hreply hevaluated
  exact ⟨v, reply, ctx, decision, config, bytes, hreply, hasked, hverdict, hconfig⟩

end DockerProxy.Proxy
