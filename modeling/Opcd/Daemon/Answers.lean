import Opcd.Abstract.Deferred
import Opcd.Handler.Response

/-!
# Answers to requests

A request is answered at once, by the response of its handler or the rejection of a bad length, or later,
when its write came to an end. Either way the answer goes to the client that asked, and names its request.

* `defer_carried`: a deferred request is one that a datagram of the run brought.
* `responses_correlate`: every response is an acknowledgement of the datagram that caused it.
-/

namespace Opcd

open Bytes Protocol Store

/-- The action is a datagram that brings `cl`'s request with this id. -/
def Action.Carries (a : Action) (cl : Client) (id : BitVec 16) : Prop :=
  ∃ env revert d h body, a = .datagram env revert cl.ip cl.port d ∧
    frameParse (frameOf d) = some (h, body) ∧ h.commandType = cmdRequest ∧
    h.reqIndicationId = id ∧ h.sequenceNumber = cl.seq

theorem Action.carries_of_brings {a : Action} {cl : Client} {id : BitVec 16}
    (h : a.source.Brings cl id) : a.Carries cl id := by
  obtain ⟨frame, hd, body, hsrc, hparse, htype, hid⟩ := h
  cases a with
  | datagram env revert ip port d =>
    change requestOf ip port (frameOf d) = some (cl, frame) at hsrc
    obtain ⟨⟨hd', body'⟩, hparse', heq⟩ := Option.map_eq_some_iff.mp hsrc
    obtain ⟨rfl, rfl⟩ := Prod.mk.inj heq
    obtain ⟨rfl, rfl⟩ := Prod.mk.inj (Option.some.inj (hparse'.symm.trans hparse))
    exact ⟨env, revert, d, hd', body', rfl, hparse, htype, hid, rfl⟩
  | _ => cases hsrc

/-! ## Deferred requests -/

section

variable {src : Source} {k : AckIdx} {r : Resource} {noAck : Bool} {id : BitVec 16} {cl : Client}
  {data : Bytes}

theorem Move.defer_brings {x x' : Sys} {out : List Effect} (h : Move src x out x')
    (hnone : x.txn .none = none) (he : .defer k r noAck id cl data ∈ out) : src.Brings cl id := by
  have hmem : .defer k r noAck id cl data ∈ tableEvents x.paths out := mem_tableEvents rfl he
  cases h.table hnone with
  | aside _ hev => simp [hev] at hmem
  | queued _ _ brought _ _ hev =>
    rw [hev, List.mem_singleton] at hmem
    obtain ⟨-, -, -, rfl, rfl, -⟩ := Effect.defer.inj hmem
    exact brought
  | made _ _ _ _ hev => simp [hev] at hmem
  | settled _ _ _ _ _ hev => simp [hev] at hmem
  | written _ _ _ _ hev => simp [hev] at hmem

theorem defer_brings {x x' : Sys} {out : List Effect} (h : Steps (Move src) x out x')
    (hnone : x.txn .none = none) (he : .defer k r noAck id cl data ∈ out) : src.Brings cl id := by
  have hall := h.trace_inv
    (P := fun tr x => x.txn .none = none ∧ ∀ k r noAck id cl data,
      .defer k r noAck id cl data ∈ tr → src.Brings cl id) ?_ [] ⟨hnone, by simp⟩
  · exact hall.2 k r noAck id cl data he
  · rintro tr x es x' ⟨hx, htr⟩ hm
    refine ⟨hm.noFile hx, fun k r noAck id cl data he => ?_⟩
    rcases List.mem_append.mp he with he | he
    · exact htr k r noAck id cl data he
    · exact hm.defer_brings hx he

end

/-- The effect `e` that comes after the effects `earlier` in a run from `s` is one of an action that brings
`cl`'s request with this id. -/
def BroughtAt (s : St) (as : List Action) (earlier : List Effect) (e : Effect) (cl : Client)
    (id : BitVec 16) : Prop :=
  ∃ as₁ a as₂ before after, as = as₁ ++ a :: as₂ ∧ a.Carries cl id ∧
    daemon.out (daemon.run s as₁) a = before ++ e :: after ∧ earlier = daemon.trace s as₁ ++ before

/-- An event of the table in the effects. -/
theorem tableEvents_split {p : Paths} {out b c : List Effect} {e : Effect} (h : tableEvents p out = b ++ e :: c) :
    ∃ b' c', out = b' ++ e :: c' ∧ tableEvents p b' = b ∧ tableEvents p c' = c := by
  obtain ⟨l₁, l₂, rfl, hb, hrest⟩ := List.filter_eq_append_iff.mp h
  obtain ⟨m₁, m₂, rfl, hoff, -, hc⟩ := List.filter_eq_cons_iff.mp hrest
  refine ⟨l₁ ++ m₁, m₂, by simp, ?_, hc⟩
  have hnil : tableEvents p m₁ = [] := List.filter_eq_nil_iff.mpr hoff
  rw [tableEvents_append, hnil, List.append_nil]
  exact hb

section Runs

variable {conf : Conf} {paths : Paths} {d : Disk} {env : StartEnv} {as : List Action}
  {rs : List WriteResult} {ready : ReadyEnv}

/-- **A deferred request is one that a datagram of the run brought.** -/
theorem defer_carried {earlier after : List Effect} {k : AckIdx} {r : Resource} {noAck : Bool}
    {id : BitVec 16} {cl : Client} {data : Bytes}
    (h : fullTrace (startup conf paths d env).st as rs ready = earlier ++ .defer k r noAck id cl data :: after) :
    BroughtAt (startup conf paths d env).st as earlier (.defer k r noAck id cl data) cl id := by
  have hshut : .defer k r noAck id cl data ∉
      ((daemon.run (startup conf paths d env).st as).shutdown rs ready).out := by
    intro he
    obtain ⟨x, hx, hdef⟩ := deferred_run conf paths d env as
    obtain ⟨closing, x', hsteps, -⟩ := hx.shutdown rs ready
    obtain ⟨frame, -, -, hsrc, -⟩ := defer_brings hsteps hdef.noFile he
    cases hsrc
  rcases List.append_eq_append_iff.mp h with ⟨b', rfl, hout⟩ | ⟨c', htr, hout⟩
  · exact absurd (by rw [hout]; simp) hshut
  · cases c' with
    | nil =>
      rw [List.nil_append] at hout
      exact absurd (by rw [← hout]; simp) hshut
    | cons e c' =>
      obtain ⟨rfl, -⟩ := List.cons.inj hout
      obtain ⟨as₁, a, as₂, b, c, rfl, hout', rfl, -⟩ := daemon.trace_split htr
      obtain ⟨x, hx, hdef⟩ := deferred_run conf paths d env as₁
      obtain ⟨x', hsteps, -⟩ := daemon_simulated x _ a hx
      have he : .defer k r noAck id cl data ∈ daemon.out (daemon.run (startup conf paths d env).st as₁) a := by
        rw [hout']
        simp
      exact ⟨as₁, a, as₂, b, c, rfl, Action.carries_of_brings (defer_brings hsteps hdef.noFile he), hout',
        rfl⟩

/-- **What is settled was deferred**, and nothing else happened to its slot and its file. -/
theorem settle_caused {before after : List Effect} {k : AckIdx} {sent : Option (BitVec 32 × BitVec 16 × Bytes)}
    (h : fullTrace (startup conf paths d env).st as rs ready = before ++ .settle k sent :: after) :
    ∃ earlier r t res mid, before = earlier ++ t.queued r :: mid ∧ t.slot = k ∧ r ≠ .none ∧
      Closed paths r t res mid sent := by
  obtain ⟨closing, x, -, hdef⟩ := deferred_shutdown conf paths d env as rs ready
  have hev : tableEvents paths (fullTrace (startup conf paths d env).st as rs ready) =
      tableEvents paths before ++ .settle k sent :: tableEvents paths after := by
    rw [h, tableEvents_append]
    rfl
  obtain ⟨earlier, r, t, res, mid, hbefore, hslot, hr, hclosed⟩ := hdef.caused _ _ _ _ hev
  obtain ⟨earlier', mid', rfl, -, rfl⟩ := tableEvents_split hbefore
  exact ⟨earlier', r, t, res, mid', rfl, hslot, hr, hclosed.since.of_tableEvents hr, hclosed.made,
    hclosed.sent⟩

end Runs

theorem acknowledges_answer {r : Resource} {t : Txn} {res : WriteResult} {ip : BitVec 32}
    {port : BitVec 16} {f : Bytes} (h : t.answer r res = some (ip, port, f)) :
    t.cl.ip = ip ∧ t.cl.port = port ∧ Acknowledges f r.reqId t.cl.seq 68 := by
  unfold Txn.answer at h
  split_ifs at h
  all_goals
    obtain ⟨rfl, rfl, rfl⟩ := by simpa using h
    exact ⟨rfl, rfl, acknowledges_simpleAck rfl⟩

/-- **Every response correlates with its request**: what `opcd_dispatch` answers, what a bad length is
answered, and what a deferred request is answered in the end. -/
theorem responses_correlate :
    (∀ (st : St) (env : Env) (frame : Bytes) (ip : BitVec 32) (port : BitVec 16),
      ((st.dispatch env frame ip port).val.2 ≠ [] → ∃ h body, frameParse frame = some (h, body) ∧
          Acknowledges (st.dispatch env frame ip port).val.2 h.reqIndicationId h.sequenceNumber
            (responseSize h.reqIndicationId frame)) ∧
      ((st.dispatch env frame ip port).val.1 ≠ 0 ∧ (st.dispatch env frame ip port).val.2 = [] ↔ Undispatched frame)) ∧
    (∀ (st : St) (buf : Bytes) (ip : BitVec 32) (port : BitVec 16) (e : Effect), e ∈ st.rejectBadLength buf ip port →
        ∃ f h, e = .send ip port f ∧ fixedHeaderUnpack buf = some h ∧
          Acknowledges f h.reqIndicationId h.sequenceNumber
            (if h.commandType = cmdRequest ∧ h.reqIndicationId = Command.getDeviceInfo.id then 416
              else 68)) ∧ (∀ (conf : Conf) (paths : Paths) (d : Disk) (start : StartEnv) (as : List Action)
        (rs : List WriteResult) (ready : ReadyEnv) (before after : List Effect) (k : AckIdx)
        (ip : BitVec 32) (port : BitVec 16) (f : Bytes),
      fullTrace (startup conf paths d start).st as rs ready =
          before ++ .settle k (some (ip, port, f)) :: after →
        ∃ earlier mid r noAck id cl data, before = earlier ++ .defer k r noAck id cl data :: mid ∧
          (∀ e ∈ mid, e.slot? ≠ some k) ∧
          BroughtAt (startup conf paths d start).st as earlier (.defer k r noAck id cl data) cl id ∧
          cl.ip = ip ∧ cl.port = port ∧ Acknowledges f id cl.seq 68) := by
  refine ⟨fun st env frame ip port => ⟨acknowledges_dispatch st env frame ip port, ?_⟩,
    fun st buf ip port e => acknowledges_reject st buf ip port, ?_⟩
  · obtain ⟨hiff, hnil⟩ := dispatch_fails_iff st env frame ip port
    exact ⟨fun h => hiff.mp h.1, fun h => ⟨hiff.mpr h, hnil (hiff.mpr h)⟩⟩
  · intro conf paths d start as rs ready before after k ip port f htr
    obtain ⟨earlier, r, t, res, mid, rfl, rfl, -, hclosed⟩ := settle_caused htr
    obtain ⟨hip, hport, hack⟩ := acknowledges_answer hclosed.sent.symm
    have hsplit : fullTrace (startup conf paths d start).st as rs ready =
        earlier ++ t.queued r :: (mid ++ .settle t.slot (some (ip, port, f)) :: after) := by
      rw [htr, List.append_assoc]
      rfl
    exact ⟨earlier, mid, r, _, _, t.cl, _, rfl, hclosed.since.alone, defer_carried hsplit, hip, hport,
      hack⟩

end Opcd
