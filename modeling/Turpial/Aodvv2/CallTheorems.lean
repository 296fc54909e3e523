/-
Turpial.Aodvv2.CallTheorems — what the end callbacks call, and when.

§1 shows that the callbacks with their calls are the callbacks: forgetting
the calls gives the same result and the same node. §2 lists the calls. The
update of the route tables adds one route to the forwarding table, after
deleting one when it improves; behind it an accepted message makes exactly
one more call. §3 puts this together: a message that is rejected, at
whichever exit, has called nothing and left the routes to the staleness
rule.
-/
import Turpial.Aodvv2.Calls
import Turpial.Aodvv2.HandlerTheorems
import Turpial.Aodvv2.LrsPassTheorems

namespace Turpial.Aodvv2

open Turpial.Lib Turpial.Rfc5444

variable {cfg : Conf} {now : Timex}

/-! ## §1 The same callbacks -/

/-- The result and the node, without the calls. -/
def Traced.forget (r : Traced.Result) : EndResult := (r.1, r.2.node)

namespace Traced

theorem writeRouter_node (r : Router) (t : Traced) :
    (t.writeRouter r).node = { t.node with router := r } := rfl

theorem writeMsgData_node (d : Message) (t : Traced) :
    (t.writeMsgData d).node = { t.node with msgData := d } := rfl

/-- The route tables are updated in the same way, and nothing else is. -/
theorem updateRoute_node (msg : Message) (node : NodeData) (route : LocalRoute) (t : Traced) :
    (updateRoute cfg now msg node route t).1 =
        (Aodvv2.updateRoute cfg now msg node route t.node.router).1 ∧
      (updateRoute cfg now msg node route t).2.node =
        { t.node with
          router := (Aodvv2.updateRoute cfg now msg node route t.node.router).2 } := by
  unfold updateRoute Aodvv2.updateRoute
  dsimp only
  cases hfound : (lrsGetEntry cfg now node.addr msg.metricType t.node.router.lrs).2 with
  | none => exact ⟨rfl, rfl⟩
  | some i =>
    dsimp only
    split
    · exact ⟨rfl, rfl⟩
    · split
      · exact ⟨rfl, rfl⟩
      · exact ⟨rfl, rfl⟩

theorem updateRoute_rcs (msg : Message) (node : NodeData) (route : LocalRoute) (t : Traced) :
    (updateRoute cfg now msg node route t).2.node.router.rcs = t.node.router.rcs := by
  rw [(updateRoute_node _ _ _ _).2]
  exact (updateRoute_frame _ _ _ _).1

theorem returnRrep_forget (pkt : Message) (nextHop : Option Ipv6Addr) (t : Traced) :
    forget (returnRrep pkt nextHop t) = Aodvv2.returnRrep pkt nextHop t.node := by
  cases nextHop with
  | none => rfl
  | some hop => rfl

/-- A test that both make. -/
theorem forget_ite {p : Prop} [Decidable p] {r r' : Result} {e e' : EndResult}
    (h : p → forget r = e) (h' : ¬ p → forget r' = e') :
    forget (if p then r else r') = if p then e else e' := by
  by_cases hp : p
  · rw [if_pos hp, if_pos hp, h hp]
  · rw [if_neg hp, if_neg hp, h' hp]

theorem cbRreqEndCallback_forget (cfg : Conf) (now : Timex) (dropped : Bool) (s : Node) :
    forget (cbRreqEndCallback cfg now dropped { node := s }) =
      Aodvv2.cbRreqEndCallback cfg now dropped s := by
  unfold cbRreqEndCallback Aodvv2.cbRreqEndCallback
  dsimp only
  refine forget_ite (fun _ => rfl) fun _ => ?_
  refine forget_ite (fun _ => rfl) fun _ => ?_
  refine forget_ite (fun _ => rfl) fun _ => ?_
  refine forget_ite (fun _ => rfl) fun _ => ?_
  refine forget_ite (fun _ => rfl) fun _ => ?_
  refine forget_ite (fun _ => rfl) fun _ => ?_
  rw [(updateRoute_node _ _ _ _).1, (updateRoute_node _ _ _ _).2]
  refine forget_ite (fun _ => Prod.ext rfl (updateRoute_node _ _ _ _).2) fun _ => ?_
  refine forget_ite (fun _ => ?_) fun _ => ?_
  · refine (returnRrep_forget _ _ _).trans (congrArg (Aodvv2.returnRrep _ _) ?_)
    rw [writeMsgData_node, (updateRoute_node _ _ _ _).2]
    rfl
  · exact Prod.ext rfl (congrArg (sendRreq _) (updateRoute_node _ _ _ _).2)

theorem cbRrepEndCallback_forget (cfg : Conf) (now : Timex) (dropped : Bool) (s : Node) :
    forget (cbRrepEndCallback cfg now dropped { node := s }) =
      Aodvv2.cbRrepEndCallback cfg now dropped s := by
  unfold cbRrepEndCallback Aodvv2.cbRrepEndCallback
  dsimp only
  refine forget_ite (fun _ => rfl) fun _ => ?_
  refine forget_ite (fun _ => rfl) fun _ => ?_
  refine forget_ite (fun _ => rfl) fun _ => ?_
  refine forget_ite (fun _ => rfl) fun _ => ?_
  rw [(updateRoute_node _ _ _ _).1, (updateRoute_node _ _ _ _).2]
  refine forget_ite (fun _ => Prod.ext rfl (updateRoute_node _ _ _ _).2) fun _ => ?_
  refine forget_ite (fun _ => ?_) fun _ => ?_
  · exact Prod.ext rfl (congrArg
      (fun n => ((Call.bufferDispatch _).perform n).getD n) (updateRoute_node _ _ _ _).2)
  · refine (returnRrep_forget _ _ _).trans (congrArg (Aodvv2.returnRrep _ _) ?_)
    rw [writeRouter_node, (updateRoute_node _ _ _ _).2]
    rfl

/-! ## §2 The calls -/

/-- The calls of a table update: one route is added, and nothing is sent. -/
structure AddsOneRoute (calls : List Call) : Prop where
  adds : calls.countP Call.addsRoute = 1
  quiet : ∀ c ∈ calls, c.sends = false

/-- An update that offers no improvement calls nothing. -/
theorem updateRoute_calls (msg : Message) (node : NodeData) (route : LocalRoute) (t : Traced) :
    ((updateRoute cfg now msg node route t).1 = false →
      (updateRoute cfg now msg node route t).2.calls = t.calls) ∧
    ((updateRoute cfg now msg node route t).1 = true →
      ∃ calls, (updateRoute cfg now msg node route t).2.calls = t.calls ++ calls ∧
        AddsOneRoute calls) := by
  have hcreated : ∀ {t' : Traced}, t'.calls = t.calls →
      ∃ calls, (createRoute cfg now route node msg.sender t').calls = t.calls ++ calls ∧
        AddsOneRoute calls := by
    intro t' ht
    exact ⟨[_], congrArg (· ++ [_]) ht, rfl, by simp [Call.sends]⟩
  unfold updateRoute
  dsimp only
  cases (lrsGetEntry cfg now node.addr msg.metricType t.node.router.lrs).2 with
  | none => exact ⟨nofun, fun _ => hcreated rfl⟩
  | some i =>
    dsimp only
    split
    · exact ⟨nofun, fun _ => hcreated rfl⟩
    · split
      · exact ⟨fun _ => rfl, nofun⟩
      · refine ⟨nofun, fun _ => ⟨[.nibFtDel route.addr route.pfxLen,
          .nibFtAdd route.addr route.pfxLen route.nextHop], ?_, rfl, by simp [Call.sends]⟩⟩
        exact List.append_assoc t.calls [_] [_]

/-- What the calls of an end callback are, for the call `c` that an accepted
message ends with. -/
inductive CallsOf (c : Call) : Result → Prop
  | rejected {t : Traced} (calls : t.calls = []) : CallsOf c (.ok .dropPacket, t)
  | accepted {r : Except Fault Rfc5444Result} {t : Traced} {calls : List Call}
      (result : r = .ok .okay ∨ r = .error .nullDereference)
      (all : t.calls = calls ++ [c]) (route : AddsOneRoute calls) : CallsOf c (r, t)

end Traced

/-- The call that an accepted RREQ ends with. -/
def rreqCall (now : Timex) (s : Node) : Call :=
  if IsClient s.router.rcs s.msgData.targNode.addr then
    .sendRrep { rreqRecord now s.msgData with targNode.metric := 0 } (some s.msgData.sender)
  else .sendRreq (rreqRecord now s.msgData) .allManetRouters

/-- The call that an accepted RREP ends with. -/
def rrepCall (cfg : Conf) (now : Timex) (s : Node) : Call :=
  if IsClient s.router.rcs s.msgData.origNode.addr then .bufferDispatch s.msgData.targNode.addr
  else .sendRrep (rrepRecord now s.msgData) (rrepNextHop cfg now s).2

namespace Traced

theorem cbRreqEndCallback_calls (cfg : Conf) (now : Timex) (dropped : Bool) (s : Node) :
    CallsOf (rreqCall now s) (cbRreqEndCallback cfg now dropped { node := s }) := by
  unfold cbRreqEndCallback
  dsimp only
  refine iteInduction (fun _ => .rejected rfl) fun _ => ?_
  refine iteInduction (fun _ => .rejected rfl) fun _ => ?_
  refine iteInduction (fun _ => .rejected rfl) fun _ => ?_
  refine iteInduction (fun _ => .rejected rfl) fun _ => ?_
  refine iteInduction (fun _ => .rejected rfl) fun _ => ?_
  refine iteInduction (fun _ => .rejected rfl) fun _ => ?_
  refine iteInduction (fun h => .rejected ?_) fun h => ?_
  · exact (updateRoute_calls _ _ _ _).1 (by simpa using h)
  obtain ⟨calls, hcalls, hroute⟩ := (updateRoute_calls _ _ _ _).2 (by simpa using h)
  rw [updateRoute_rcs]
  unfold rreqCall
  refine iteInduction (fun hclient : IsClient s.router.rcs s.msgData.targNode.addr => ?_)
    fun hclient : ¬ IsClient s.router.rcs s.msgData.targNode.addr => ?_
  · rw [if_pos hclient]
    exact .accepted (Or.inl rfl) (congrArg (· ++ [_]) hcalls) hroute
  · rw [if_neg hclient]
    exact .accepted (Or.inl rfl) (congrArg (· ++ [_]) hcalls) hroute

theorem cbRrepEndCallback_calls (cfg : Conf) (now : Timex) (dropped : Bool) (s : Node) :
    CallsOf (rrepCall cfg now s) (cbRrepEndCallback cfg now dropped { node := s }) := by
  unfold cbRrepEndCallback
  dsimp only
  refine iteInduction (fun _ => .rejected rfl) fun _ => ?_
  refine iteInduction (fun _ => .rejected rfl) fun _ => ?_
  refine iteInduction (fun _ => .rejected rfl) fun _ => ?_
  refine iteInduction (fun _ => .rejected rfl) fun _ => ?_
  refine iteInduction (fun h => .rejected ?_) fun h => ?_
  · exact (updateRoute_calls _ _ _ _).1 (by simpa using h)
  obtain ⟨calls, hcalls, hroute⟩ := (updateRoute_calls _ _ _ _).2 (by simpa using h)
  rw [updateRoute_rcs, (updateRoute_node _ _ _ _).2]
  unfold rrepCall
  refine iteInduction (fun hclient : IsClient s.router.rcs s.msgData.origNode.addr => ?_)
    fun hclient : ¬ IsClient s.router.rcs s.msgData.origNode.addr => ?_
  · rw [if_pos hclient]
    exact .accepted (Or.inl rfl) (congrArg (· ++ [_]) hcalls) hroute
  · rw [if_neg hclient]
    refine .accepted ?_ (congrArg (· ++ [_]) hcalls) hroute
    exact ite_eq_or_eq _ _ _

end Traced

/-- The calls that an accepted message ends with. -/
theorem rreqCall_cases (now : Timex) (s : Node) :
    (∃ pkt, rreqCall now s = .sendRreq pkt .allManetRouters) ∨
      ∃ pkt nextHop, rreqCall now s = .sendRrep pkt nextHop := by
  unfold rreqCall
  split
  · exact Or.inr ⟨_, _, rfl⟩
  · exact Or.inl ⟨_, rfl⟩

theorem rrepCall_cases (cfg : Conf) (now : Timex) (s : Node) :
    (∃ pkt nextHop, rrepCall cfg now s = .sendRrep pkt nextHop) ∨
      rrepCall cfg now s = .bufferDispatch s.msgData.targNode.addr := by
  unfold rrepCall
  split
  · exact Or.inr rfl
  · exact Or.inl ⟨_, _, rfl⟩

theorem rreqCall_sends (now : Timex) (s : Node) : (rreqCall now s).sends = true := by
  rcases rreqCall_cases now s with ⟨pkt, heq⟩ | ⟨pkt, nextHop, heq⟩
  · rw [heq]; rfl
  · rw [heq]; rfl

theorem rrepCall_sends (cfg : Conf) (now : Timex) (s : Node) :
    (rrepCall cfg now s).sends = true := by
  rcases rrepCall_cases cfg now s with ⟨pkt, nextHop, heq⟩ | heq
  · rw [heq]; rfl
  · rw [heq]; rfl

namespace Traced

/-- A rejected message has called nothing. -/
theorem CallsOf.of_drop {c : Call} {r : Result} (h : CallsOf c r) (hr : r.1 = .ok .dropPacket) :
    r.2.calls = [] := by
  cases h with
  | rejected calls => exact calls
  | accepted result all route =>
    rcases result with rfl | rfl
    · cases hr
    · cases hr

/-- Any other has added one route and made the call it ends with. -/
theorem CallsOf.of_not_drop {c : Call} {r : Result} (h : CallsOf c r)
    (hr : r.1 ≠ .ok .dropPacket) (hsends : c.sends = true) :
    r.2.calls.countP Call.addsRoute = 1 ∧ r.2.calls.filter Call.sends = [c] := by
  cases h with
  | rejected calls => exact absurd rfl hr
  | accepted result all route =>
    have hadds : c.addsRoute = false := by
      cases c with
      | nibFtAdd => cases hsends
      | _ => rfl
    have hquiet := List.filter_eq_nil_iff.mpr fun c hc => Bool.eq_false_iff.mp (route.quiet c hc)
    rw [all]
    constructor
    · rw [List.countP_append, route.adds, List.countP_singleton, hadds]
      rfl
    · rw [List.filter_append, hquiet, List.nil_append]
      exact List.filter_cons_of_pos hsends

/-- What is sent on is nothing for a rejected message, and one call otherwise. -/
theorem CallsOf.sends_eq {c : Call} {r : Result} (h : CallsOf c r) (hsends : c.sends = true) :
    (r.1 = .ok .dropPacket → r.2.calls.filter Call.sends = []) ∧
      (r.1 ≠ .ok .dropPacket → r.2.calls.filter Call.sends = [c]) := by
  refine ⟨fun hr => ?_, fun hr => (h.of_not_drop hr hsends).2⟩
  rw [h.of_drop hr]
  rfl

end Traced

/-- What is sent on for an RREQ. -/
theorem rreq_sends (cfg : Conf) (now : Timex) (s : Node) :
    (Traced.cbRreqEndCallback cfg now false { node := s }).2.calls.filter Call.sends =
      if RreqChecks cfg s.msgData ∧ ¬ Redundant cfg now s.msgData s.router ∧
        (rreqTables cfg now s.msgData s.router).1 = true then [rreqCall now s] else [] := by
  have hcalls := Traced.cbRreqEndCallback_calls cfg now false s
  have hout := cbRreqEndCallback_outcome cfg now s
  rw [← Traced.cbRreqEndCallback_forget] at hout
  generalize Traced.cbRreqEndCallback cfg now false { node := s } = r at hcalls hout
  obtain ⟨hnone, hone⟩ := hcalls.sends_eq (rreqCall_sends now s)
  obtain ⟨res, t⟩ := r
  generalize hend : Traced.forget (res, t) = result at hout
  have hres : res = result.1 := congrArg Prod.fst hend
  subst hres
  cases hout with
  | refused hchecks => rw [if_neg fun h => hchecks h.1, hnone rfl]
  | redundant hchecks hseen => rw [if_neg fun h => h.2.1 hseen, hnone rfl]
  | noImprovement hchecks hseen hkept =>
    rw [if_neg fun h => Bool.false_ne_true (hkept.symm.trans h.2.2), hnone rfl]
  | answered hchecks hseen hupdated => rw [if_pos ⟨hchecks, hseen, hupdated⟩, hone nofun]
  | forwarded hchecks hseen hupdated => rw [if_pos ⟨hchecks, hseen, hupdated⟩, hone nofun]

/-- What is sent on for an RREP. -/
theorem rrep_sends (cfg : Conf) (now : Timex) (s : Node) :
    (Traced.cbRrepEndCallback cfg now false { node := s }).2.calls.filter Call.sends =
      if RrepChecks cfg s.msgData ∧ (rrepTables cfg now s.msgData s.router).1 = true then
        [rrepCall cfg now s] else [] := by
  have hcalls := Traced.cbRrepEndCallback_calls cfg now false s
  have hout := cbRrepEndCallback_outcome cfg now s
  rw [← Traced.cbRrepEndCallback_forget] at hout
  generalize Traced.cbRrepEndCallback cfg now false { node := s } = r at hcalls hout
  obtain ⟨hnone, hone⟩ := hcalls.sends_eq (rrepCall_sends cfg now s)
  obtain ⟨res, t⟩ := r
  generalize hend : Traced.forget (res, t) = result at hout
  have hres : res = result.1 := congrArg Prod.fst hend
  subst hres
  cases hout with
  | refused hchecks => rw [if_neg fun h => hchecks h.1, hnone rfl]
  | noImprovement hchecks hkept =>
    rw [if_neg fun h => Bool.false_ne_true (hkept.symm.trans h.2), hnone rfl]
  | arrived hchecks hupdated => rw [if_pos ⟨hchecks, hupdated⟩, hone nofun]
  | relayed hchecks hupdated => rw [if_pos ⟨hchecks, hupdated⟩, hone nofun]
  | noNextHop hchecks hupdated => rw [if_pos ⟨hchecks, hupdated⟩, hone nofun]

/-! ## §3 Rejected and accepted messages -/

/-- An update without improvement has only looked for the route. -/
theorem updateRoute_kept {msg : Message} {node : NodeData} {route : LocalRoute} {r : Router}
    (h : (updateRoute cfg now msg node route r).1 = false) :
    Swept cfg now r.lrs (updateRoute cfg now msg node route r).2.lrs ∧
      (updateRoute cfg now msg node route r).2.nib = r.nib := by
  have hswept := lrsGetEntry_swept cfg now node.addr msg.metricType r.lrs
  unfold updateRoute at h ⊢
  dsimp only at h ⊢
  cases hfound : (lrsGetEntry cfg now node.addr msg.metricType r.lrs).2 with
  | none =>
    rw [hfound] at h
    cases h
  | some i =>
    rw [hfound] at h
    dsimp only at h ⊢
    split at h
    · cases h
    · rename_i htype
      split at h
      · rename_i hoffers
        rw [if_neg htype, if_pos hoffers]
        exact ⟨hswept, rfl⟩
      · cases h

/-- The routes, the queue and the packets are as they were, but for what
the staleness rule did to routes. -/
structure NoRoutingEffect (cfg : Conf) (now : Timex) (s s' : Node) : Prop where
  lrs : Swept cfg now s.router.lrs s'.router.lrs
  nib : s'.router.nib = s.router.nib
  outbox : s'.outbox = s.outbox
  buffer : s'.router.buffer = s.router.buffer
  dispatched : s'.dispatched = s.dispatched

theorem Swept.refl (cfg : Conf) (now : Timex) (t : RoutingTable) : Swept cfg now t t where
  length := rfl
  slot _ _ _ he he' := Or.inl (Option.some.inj (he'.symm.trans he))

theorem NoRoutingEffect.refl (cfg : Conf) (now : Timex) (s : Node) :
    NoRoutingEffect cfg now s s :=
  ⟨Swept.refl cfg now _, rfl, rfl, rfl, rfl⟩

/-- The effect of an end callback: none when it rejects, and one when it
accepts. One that hands a null pointer to `aodvv2_send_rrep` counts with
those that return OKAY. -/
structure HandlerEffect (cfg : Conf) (now : Timex) (s : Node) (result : EndResult)
    (calls : List Call) : Prop where
  rejected : result.1 = .ok .dropPacket → calls = [] ∧ NoRoutingEffect cfg now s result.2
  /-- One route is added to the forwarding table, and one thing is sent on:
  an RREQ to all MANET routers, an RREP, or the packets that wait for TargNode. -/
  accepted : result.1 = .ok .okay ∨ result.1 = .error .nullDereference →
    calls.countP Call.addsRoute = 1 ∧ ∃ c, calls.filter Call.sends = [c] ∧
      ((∃ pkt, c = .sendRreq pkt .allManetRouters) ∨ (∃ pkt nextHop, c = .sendRrep pkt nextHop) ∨
        c = .bufferDispatch s.msgData.targNode.addr)
  rcs : result.2.router.rcs = s.router.rcs
  seqnum : result.2.router.seqnum = s.router.seqnum

/-- What the end of an end callback leaves alone. -/
structure Untouching (cfg : Conf) (now : Timex) (s : Node) (result : EndResult) : Prop where
  rejected : result.1 = .ok .dropPacket → NoRoutingEffect cfg now s result.2
  rcs : result.2.router.rcs = s.router.rcs
  seqnum : result.2.router.seqnum = s.router.seqnum

theorem RreqOutcome.untouching {s : Node} {result : EndResult} (h : RreqOutcome cfg now s result) :
    Untouching cfg now s result := by
  have hframe : (rreqTables cfg now s.msgData s.router).2.rcs = s.router.rcs ∧ _ ∧
      (rreqTables cfg now s.msgData s.router).2.buffer = s.router.buffer ∧
      (rreqTables cfg now s.msgData s.router).2.seqnum = s.router.seqnum :=
    updateRoute_frame _ _ _ _
  obtain ⟨hrcs, -, hbuffer, hseqnum⟩ := hframe
  cases h with
  | refused => exact ⟨fun _ => .refl cfg now s, rfl, rfl⟩
  | redundant => exact ⟨fun _ => ⟨.refl cfg now _, rfl, rfl, rfl, rfl⟩, rfl, rfl⟩
  | noImprovement hchecks hseen hkept =>
    obtain ⟨hlrs, hnib⟩ := updateRoute_kept hkept
    exact ⟨fun _ => ⟨hlrs, hnib, rfl, hbuffer, rfl⟩, hrcs, hseqnum⟩
  | answered => exact ⟨nofun, hrcs, hseqnum⟩
  | forwarded => exact ⟨nofun, hrcs, hseqnum⟩

theorem RrepOutcome.untouching {s : Node} {result : EndResult} (h : RrepOutcome cfg now s result) :
    Untouching cfg now s result := by
  have hframe : (rrepTables cfg now s.msgData s.router).2.rcs = s.router.rcs ∧ _ ∧
      (rrepTables cfg now s.msgData s.router).2.buffer = s.router.buffer ∧
      (rrepTables cfg now s.msgData s.router).2.seqnum = s.router.seqnum :=
    updateRoute_frame _ _ _ _
  obtain ⟨hrcs, -, hbuffer, hseqnum⟩ := hframe
  cases h with
  | refused => exact ⟨fun _ => .refl cfg now s, rfl, rfl⟩
  | noImprovement hchecks hkept =>
    obtain ⟨hlrs, hnib⟩ := updateRoute_kept hkept
    exact ⟨fun _ => ⟨hlrs, hnib, rfl, hbuffer, rfl⟩, hrcs, hseqnum⟩
  | arrived => exact ⟨nofun, hrcs, hseqnum⟩
  | relayed => exact ⟨nofun, hrcs, hseqnum⟩
  | noNextHop => exact ⟨nofun, hrcs, hseqnum⟩

theorem untouching_dropped (cfg : Conf) (now : Timex) (s : Node) :
    Untouching cfg now s (.ok .dropPacket, s) :=
  ⟨fun _ => .refl cfg now s, rfl, rfl⟩

/-- **A rejected message has no routing effect, and an accepted one exactly
one**, whatever the tables hold and whichever exit is taken. -/
theorem handlers_effect (cfg : Conf) (now : Timex) (dropped : Bool) (s : Node) :
    HandlerEffect cfg now s (cbRreqEndCallback cfg now dropped s)
        (Traced.cbRreqEndCallback cfg now dropped { node := s }).2.calls ∧
      HandlerEffect cfg now s (cbRrepEndCallback cfg now dropped s)
        (Traced.cbRrepEndCallback cfg now dropped { node := s }).2.calls := by
  have hrreq : Untouching cfg now s (cbRreqEndCallback cfg now dropped s) := by
    cases dropped with
    | true => exact untouching_dropped cfg now s
    | false => exact (cbRreqEndCallback_outcome cfg now s).untouching
  have hrrep : Untouching cfg now s (cbRrepEndCallback cfg now dropped s) := by
    cases dropped with
    | true => exact untouching_dropped cfg now s
    | false => exact (cbRrepEndCallback_outcome cfg now s).untouching
  have hrreqCalls := Traced.cbRreqEndCallback_calls cfg now dropped s
  have hrrepCalls := Traced.cbRrepEndCallback_calls cfg now dropped s
  rw [← Traced.cbRreqEndCallback_forget cfg now dropped s] at hrreq ⊢
  rw [← Traced.cbRrepEndCallback_forget cfg now dropped s] at hrrep ⊢
  have hnot : ∀ r : Except Fault Rfc5444Result, r = .ok .okay ∨ r = .error .nullDereference →
      r ≠ .ok .dropPacket := by
    rintro r (rfl | rfl)
    · exact nofun
    · exact nofun
  refine ⟨⟨fun hr => ⟨hrreqCalls.of_drop hr, hrreq.rejected hr⟩, fun hr => ?_, hrreq.rcs,
    hrreq.seqnum⟩, ⟨fun hr => ⟨hrrepCalls.of_drop hr, hrrep.rejected hr⟩, fun hr => ?_, hrrep.rcs,
    hrrep.seqnum⟩⟩
  · obtain ⟨hadds, hsends⟩ := hrreqCalls.of_not_drop (hnot _ hr) (rreqCall_sends now s)
    refine ⟨hadds, _, hsends, ?_⟩
    rcases rreqCall_cases now s with hrreq | hrrep
    · exact Or.inl hrreq
    · exact Or.inr (Or.inl hrrep)
  · obtain ⟨hadds, hsends⟩ := hrrepCalls.of_not_drop (hnot _ hr) (rrepCall_sends cfg now s)
    exact ⟨hadds, _, hsends, Or.inr (rrepCall_cases cfg now s)⟩

/-! ## §4 The queue -/

namespace Traced

/-- The queue holds what the calls have posted, behind what was in it. -/
def Posts (before : List Outgoing) (t : Traced) : Prop :=
  t.node.outbox = before ++ t.calls.filterMap Call.posted

variable {before : List Outgoing} {t : Traced}

theorem Posts.call (h : Posts before t) (c : Call) : Posts before (t.call c) := by
  have hperform : ((c.perform t.node).getD t.node).outbox = t.node.outbox ++ c.posted.toList := by
    cases c with
    | sendRreq pkt nextHop => rfl
    | sendRrep pkt nextHop =>
      cases nextHop with
      | none => exact (List.append_nil _).symm
      | some hop => rfl
    | nibFtAdd => exact (List.append_nil _).symm
    | nibFtDel => exact (List.append_nil _).symm
    | bufferDispatch => exact (List.append_nil _).symm
  have hone : ([c] : List Call).filterMap Call.posted = c.posted.toList := by
    cases hc : c.posted with
    | none => exact List.filterMap_cons_none hc
    | some o => exact List.filterMap_cons_some hc
  unfold Posts at h ⊢
  change ((c.perform t.node).getD t.node).outbox = before ++ (t.calls ++ [c]).filterMap Call.posted
  rw [hperform, h, List.filterMap_append, hone, List.append_assoc]

theorem Posts.writeRouter (h : Posts before t) (r : Router) : Posts before (t.writeRouter r) := h

theorem Posts.writeMsgData (h : Posts before t) (d : Message) : Posts before (t.writeMsgData d) := h

theorem Posts.updateRoute (h : Posts before t) (msg : Message) (node : NodeData)
    (route : LocalRoute) : Posts before (updateRoute cfg now msg node route t).2 := by
  have hcreated : ∀ {t' : Traced}, Posts before t' →
      Posts before (createRoute cfg now route node msg.sender t') :=
    fun h => (h.writeRouter _).call _
  have himproved : ∀ {t' : Traced} (i : Nat), Posts before t' →
      Posts before (improveRoute i route t') :=
    fun _ h => ((h.writeRouter _).call _).call _
  unfold Traced.updateRoute
  dsimp only
  split
  · exact hcreated (h.writeRouter _)
  · split
    · exact hcreated (h.writeRouter _)
    · split
      · exact h
      · exact himproved _ (h.writeRouter _)

theorem Posts.ite {p : Prop} [Decidable p] {r r' : Result} (h : p → Posts before r.2)
    (h' : ¬ p → Posts before r'.2) : Posts before (if p then r else r').2 := by
  by_cases hp : p
  · rw [if_pos hp]
    exact h hp
  · rw [if_neg hp]
    exact h' hp

theorem Posts.cbRreqEndCallback (h : Posts before t) (dropped : Bool) :
    Posts before (cbRreqEndCallback cfg now dropped t).2 := by
  unfold Traced.cbRreqEndCallback
  dsimp only
  refine .ite (fun _ => h) fun _ => .ite (fun _ => h) fun _ => .ite (fun _ => h) fun _ => ?_
  refine .ite (fun _ => h) fun _ => .ite (fun _ => h) fun _ => .ite (fun _ => h) fun _ => ?_
  refine .ite (fun _ => ?_) fun _ => .ite (fun _ => ?_) fun _ => ?_
  · exact ((h.writeRouter _).writeMsgData _).updateRoute _ _ _
  · exact ((((h.writeRouter _).writeMsgData _).updateRoute _ _ _).writeMsgData _).call _
  · exact (((h.writeRouter _).writeMsgData _).updateRoute _ _ _).call _

theorem Posts.cbRrepEndCallback (h : Posts before t) (dropped : Bool) :
    Posts before (cbRrepEndCallback cfg now dropped t).2 := by
  unfold Traced.cbRrepEndCallback
  dsimp only
  refine .ite (fun _ => h) fun _ => .ite (fun _ => h) fun _ => .ite (fun _ => h) fun _ => ?_
  refine .ite (fun _ => h) fun _ => .ite (fun _ => ?_) fun _ => .ite (fun _ => ?_) fun _ => ?_
  · exact (h.writeMsgData _).updateRoute _ _ _
  · exact ((h.writeMsgData _).updateRoute _ _ _).call _
  · exact (((h.writeMsgData _).updateRoute _ _ _).writeRouter _).call _

end Traced

/-- What the consumer of one message type posts. -/
theorem consumeWith_posts {cbs : Callbacks} {endCallback : TracedCallback}
    (hforget : ∀ dropped s, Traced.forget (endCallback cfg now dropped { node := s }) =
      cbs.endCallback cfg now dropped s)
    (hposts : ∀ dropped s, Traced.Posts s.outbox (endCallback cfg now dropped { node := s }).2)
    (msg : MessageContext) (s : Node) :
    (consumeWith cfg now cbs msg s).2.outbox =
      s.outbox ++ (consumeCalls cfg now cbs endCallback msg s).filterMap Call.posted := by
  unfold consumeWith consumeCalls
  dsimp only
  generalize decodeMessage cbs msg s.msgData = decoded
  obtain ⟨r, st⟩ := decoded
  cases r with
  | error f => exact (List.append_nil _).symm
  | ok r =>
    have hend := hposts (decide (r ≠ .okay)) { s with msgData := st.msgData }
    dsimp only
    rw [← hforget]
    generalize endCallback cfg now (decide (r ≠ .okay)) { node := { s with msgData := st.msgData } } =
      ended at hend ⊢
    obtain ⟨e | e, t⟩ := ended
    · exact hend
    · exact hend

/-- **Every message in the queue comes from a call**, and every call that does
not hand on a null pointer leaves one there. -/
theorem receive_posts (cfg : Conf) (now : Timex) (sender : Ipv6Addr) (msg : MessageContext)
    (s : Node) : (receive cfg now sender msg s).outbox =
      s.outbox ++ (messageCalls cfg now sender msg s).filterMap Call.posted := by
  have hinit : ∀ s : Node, Traced.Posts s.outbox { node := s } :=
    fun s => (List.append_nil _).symm
  unfold receive messageCalls consumeMessage
  dsimp only
  split
  · exact consumeWith_posts (Traced.cbRreqEndCallback_forget cfg now)
      (fun dropped s => (hinit s).cbRreqEndCallback dropped) msg _
  · split
    · exact consumeWith_posts (Traced.cbRrepEndCallback_forget cfg now)
        (fun dropped s => (hinit s).cbRrepEndCallback dropped) msg _
    · exact (List.append_nil _).symm

end Turpial.Aodvv2
