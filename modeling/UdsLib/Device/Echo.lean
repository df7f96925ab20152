import UdsLib.Core.Answers
import UdsLib.Device.Conversation

/-! Negative responses that nobody waits for. The dispatcher takes any message that answers no request
of its own client for a request, a negative response too, and 0x7F is no service: so it answers with
another negative response, and two stacks of this kind never stop. -/
namespace UdsLib.Device
open Bytes Machine Prog

variable {V V' : Type} {d : Device V}

/-- A negative response. -/
def negative (sid nrc : UInt8) : Sdu where
  bytes := [0x7F, sid, nrc]
  length_lt := by simp

/-- The one frame of a negative response. -/
def negativeFrame (sid nrc : UInt8) : List UInt8 := Isotp.sfFrame (negative sid nrc)

/-- The frame carries a negative response. -/
def carriesNegative (frame : List UInt8) : Bool :=
  frame = negativeFrame (frame.getD 2 0) (frame.getD 3 0)

theorem negativeFrame_carries (sid nrc : UInt8) : carriesNegative (negativeFrame sid nrc) = true :=
  decide_eq_true rfl

/-- The frames on the way from a device of which the other one has got `k`. -/
def inFlight (sender : Isotp.Station) (k : ℕ) : List (List UInt8) := (Isotp.framesOf sender.log).drop k

/-- How many negative responses are on their way. -/
def Bus.negatives (b : Bus V V') : ℕ :=
  (inFlight b.client.world.transport b.fromClient.gone).countP carriesNegative +
    (inFlight b.ecu.world.transport b.fromEcu.gone).countP carriesNegative

/-- If the oldest frame on its way carries a negative response, the receiver does not wait for it. -/
def Unasked (sender : Isotp.Station) (k : ℕ) (receiver : Core.Ctx) : Prop :=
  ∀ frame ∈ (Isotp.framesOf sender.log)[k]?, carriesNegative frame = true →
    ¬ Core.takesAsAnswer receiver (negative (frame.getD 2 0) (frame.getD 3 0))

/-- No negative response arrives where it is waited for. -/
def Unawaited (b : Bus V V') : BusAct V V' → Prop
  | .toEcu _ => Unasked b.client.world.transport b.fromClient.gone b.ecu.ctx
  | .toClient _ => Unasked b.ecu.world.transport b.fromEcu.gone b.client.ctx
  | _ => True

instance (sender : Isotp.Station) (k : ℕ) (receiver : Core.Ctx) : Decidable (Unasked sender k receiver) :=
  inferInstanceAs (Decidable (∀ frame ∈ (Isotp.framesOf sender.log)[k]?, _))

instance (b : Bus V V') (act : BusAct V V') : Decidable (Unawaited b act) :=
  match act with
  | .toEcu _ => inferInstanceAs (Decidable (Unasked _ _ _))
  | .toClient _ => inferInstanceAs (Decidable (Unasked _ _ _))
  | .client _ _ | .ecu _ _ | .loseToEcu | .loseToClient => inferInstanceAs (Decidable True)

/-- The message of a Single Frame of a classic CAN frame. -/
def messageIn (frame : List UInt8) : Sdu where
  bytes := (frame.drop 1).take ((frame.getD 0 0).toNat % 8)
  length_lt := by
    rw [List.length_take]
    omega

/-- The oldest frame on its way is a message that the receiver has no service for and does not wait
for. A negative response does not count. -/
def Stray (cfg : Core.Config V) (sender : Isotp.Station) (k : ℕ) (receiver : Core.Ctx) : Prop :=
  ∃ frame ∈ (Isotp.framesOf sender.log)[k]?, frame = Isotp.sfFrame (messageIn frame) ∧
    Isotp.IsShort (messageIn frame).bytes ∧ (messageIn frame).byte 0 ≠ 0x7F ∧
    (Core.findService cfg ((messageIn frame).byte 0)).isNone = true ∧
    ¬ Core.takesAsAnswer receiver (messageIn frame)

instance (cfg : Core.Config V) (sender : Isotp.Station) (k : ℕ) (receiver : Core.Ctx) :
    Decidable (Stray cfg sender k receiver) :=
  inferInstanceAs (Decidable (∃ frame ∈ (Isotp.framesOf sender.log)[k]?, _))

/-- A stray message arrives. -/
def BringsStray (dc : Device V) (de : Device V') (b : Bus V V') : BusAct V V' → Prop
  | .toEcu _ => Stray de.wired b.client.world.transport b.fromClient.gone b.ecu.ctx
  | .toClient _ => Stray dc.wired b.ecu.world.transport b.fromEcu.gone b.client.ctx
  | _ => False

instance (dc : Device V) (de : Device V') (b : Bus V V') (act : BusAct V V') :
    Decidable (BringsStray dc de b act) :=
  match act with
  | .toEcu _ => inferInstanceAs (Decidable (Stray _ _ _ _))
  | .toClient _ => inferInstanceAs (Decidable (Stray _ _ _ _))
  | .client _ _ | .ecu _ _ | .loseToEcu | .loseToClient => inferInstanceAs (Decidable False)

/-- How many stray messages arrive in a run. -/
def straysIn (dc : Device V) (de : Device V') : Bus V V' → List (BusAct V V') → ℕ
  | _, [] => 0
  | b, act :: acts => (if BringsStray dc de b act then 1 else 0) + straysIn dc de (busStep dc de b act).1 acts

/-- A negative response has room, and 0x7F is none of the services of the application. -/
structure Rejects (cfg : Core.Config V) : Prop where
  room : 3 ≤ cfg.txBufferSize
  noService : ∀ entry ∈ cfg.userServices, entry.sid ≠ 0x7F

/-! ### One device -/

theorem sdu_ext {m m' : Sdu} (h : m.bytes = m'.bytes) : m = m' := by
  cases m
  cases m'
  cases h
  rfl

/-- What the stack has handed to `uds_isotp_send` goes out as one frame, if it is short. -/
theorem frame_of_returned {data : List UInt8} {ret : ℤ} (htakes : d.TakesAll)
    (hshort : Isotp.IsShort data) (cs : List TpCall) (st : Isotp.Station) (hcan : st.node.iso.canSend = true)
    (h : (data, ret) ∈ returns (trace d.stationStep st cs)) :
    ∃ sdu : Sdu, sdu.bytes = data ∧ Isotp.sfFrame sdu ∈ Isotp.framesOf (trace d.stationStep st cs) := by
  induction cs generalizing st with
  | nil => cases h
  | cons c cs ih =>
    rw [trace_cons, returns_append, List.mem_append] at h
    rw [trace_cons, Isotp.framesOf_append]
    rcases h with hfirst | hrest
    · cases c with
      | rx f =>
        rw [(rx_sdus d st f).2] at hfirst
        cases hfirst
      | process timeMs =>
        rw [(process_silent d st timeMs).1] at hfirst
        cases hfirst
      | setFd enabled => cases hfirst
      | send sdu =>
        have houtputs := (send_outputs d.rxBufferSize st.node sdu (d.canSend st.log)).1
        rw [show returns (d.stationStep st (.send sdu)).2 = _ from houtputs,
          List.mem_singleton] at hfirst
        obtain rfl : data = sdu.bytes := congrArg Prod.fst hfirst
        have hsend := Isotp.isotpSend_short hcan (hshort.fits st.node.iso.useCanFd)
        refine ⟨sdu, rfl, List.mem_append_left _ ?_⟩
        simp [stationStep, TpCall.op, htakes st.log, Isotp.step, hsend, Isotp.framesOf,
          Isotp.Output.frame?]
    · have hids := Isotp.step_ids d.rxBufferSize st.node (c.op (d.canSend st.log))
      obtain ⟨sdu, hbytes, hframe⟩ := ih (d.stationStep st c).1 (hids.2.2.trans hcan) hrest
      exact ⟨sdu, hbytes, List.mem_append_right _ hframe⟩

/-- A message without a service that is not waited for is answered with a negative response. -/
theorem unserved_declined {W : Type} {cfg : Core.Config W} {s : Core.Sys W} {m : Sdu}
    (hroom : 3 ≤ cfg.txBufferSize) (hreq : Core.IsRequest s m)
    (hnone : Core.findService cfg (m.byte 0) = none) :
    Core.Declined (m.byte 0) (Core.step cfg s (.inputSdu (.bytes m))).2 := by
  have hrefused : ∃ nrc, Core.refusalOf cfg s m = some nrc := by
    unfold Core.refusalOf
    split_ifs
    · exact ⟨_, rfl⟩
    · have hfirst : Core.firstFailing cfg (Core.entered cfg s) m = some .service := by
        unfold Core.firstFailing
        rw [hnone]
      rw [hfirst]
      exact ⟨_, rfl⟩
  obtain ⟨nrc, hnrc⟩ := hrefused
  exact Core.refused_declined hreq hroom hnrc

theorem Rejects.unserved (h : Rejects d.config) : Core.findService d.wired 0x7F = none := by
  cases hfound : Core.findService d.wired 0x7F with
  | none => rfl
  | some service =>
    rcases (Core.findService_iff _ _).mp hfound with ⟨before, entry, after, hentries, -, hsid, -⟩ |
      ⟨-, hcore, hsid⟩
    · have hentry : entry ∈ d.wired.userServices := by
        rw [hentries]
        exact List.mem_append_right _ List.mem_cons_self
      obtain ⟨own, hown, rfl⟩ := List.mem_map.mp hentry
      exact absurd hsid (h.noService own hown)
    · have hmem := Core.coreServices_sids ▸ List.mem_map_of_mem hcore
      rw [hsid] at hmem
      exact absurd hmem (by decide)

/-- So each such message that arrives sends a negative response on its way. -/
theorem unserved_answered (htakes : d.TakesAll) (hroom : 3 ≤ d.config.txBufferSize) (s : State V)
    {m : Sdu}
    (beyond : ℕ → UInt8) (hcan : s.world.transport.node.iso.canSend = true)
    (hshort : Isotp.IsShort m.bytes) (hreq : Core.IsRequest s m)
    (hnone : Core.findService d.wired (m.byte 0) = none) :
    let f := Isotp.RxFrame.ofBytes s.world.transport.node.iso.rxId (Isotp.sfFrame m) beyond
    ∃ os, (d.step s (.rxCallback f)).1.world.transport.log = s.world.transport.log ++ os ∧
      1 ≤ (Isotp.framesOf os).countP carriesNegative := by
  intro f
  have htaken := (Isotp.sf_taken d.rxBufferSize false m s.world.transport.node beyond
    (d.canSend s.world.transport.log) (hshort.fits false)).2
  have hsdus : Isotp.sdusOf (d.stationStep s.world.transport (.rx f)).2 = [m.bytes] := by
    rw [Isotp.handedUp, if_neg hshort.1] at htaken
    exact htaken
  have hm : sduOf m.bytes = m := sdu_ext (sduOf_bytes m.length_lt)
  have hrx : d.step s (.rxCallback f) =
      Core.step d.wired (d.outer s (.rx f)) (.inputSdu (.bytes m)) := by
    show d.rxCallback s f = _
    unfold rxCallback
    rw [hsdus]
    dsimp only
    rw [hm]
  have hdeclined : Core.Declined (m.byte 0) (d.step s (.rxCallback f)).2 := by
    rw [hrx]
    exact unserved_declined (s := d.outer s (.rx f)) hroom
      ⟨hreq.nonempty, hreq.unanswering, hreq.loud⟩ hnone
  obtain ⟨nrc, ret, hsent⟩ := hdeclined.negative
  obtain ⟨calls, entries, hprojects⟩ := step_projects d s (.rxCallback f)
  have hreturned : ([0x7F, m.byte 0, nrc], ret) ∈
      returns (trace d.stationStep s.world.transport entries) := by
    rw [hprojects.sends]
    exact List.mem_filterMap.mpr ⟨_, hsent, rfl⟩
  obtain ⟨sdu, hbytes, hframe⟩ := frame_of_returned htakes ⟨List.cons_ne_nil _ _, by simp⟩ entries
    s.world.transport hcan hreturned
  refine ⟨trace d.stationStep s.world.transport entries, ?_, ?_⟩
  · rw [← hprojects.transport, station_log]
  · have hnegative : sdu = negative (m.byte 0) nrc := sdu_ext hbytes
    rw [hnegative] at hframe
    exact List.countP_pos_iff.mpr ⟨_, hframe, negativeFrame_carries _ _⟩

/-! ### On the bus -/

theorem step_log (d : Device V) (s : State V) (op : Op V) :
    ∃ os, (step d s op).1.world.transport.log = s.world.transport.log ++ os := by
  obtain ⟨calls, entries, h⟩ := step_projects d s op
  refine ⟨trace d.stationStep s.world.transport entries, ?_⟩
  rw [← h.transport, station_log]

/-- New frames join those on their way. -/
theorem inFlight_grown {st st' : Isotp.Station} {k : ℕ} {os : List Isotp.Output}
    (hk : k ≤ (Isotp.framesOf st.log).length) (hlog : st'.log = st.log ++ os) :
    (inFlight st' k).countP carriesNegative =
      (inFlight st k).countP carriesNegative + (Isotp.framesOf os).countP carriesNegative := by
  unfold inFlight
  rw [hlog, Isotp.framesOf_append, List.drop_append_of_le_length hk, List.countP_append]

/-- The oldest one leaves them. -/
theorem inFlight_next {st : Isotp.Station} {k : ℕ} {frame : List UInt8}
    (hframe : (Isotp.framesOf st.log)[k]? = some frame) :
    (inFlight st k).countP carriesNegative =
      (inFlight st (k + 1)).countP carriesNegative + if carriesNegative frame = true then 1 else 0 := by
  obtain ⟨hk, rfl⟩ := List.getElem?_eq_some_iff.mp hframe
  unfold inFlight
  rw [List.drop_eq_getElem_cons hk, List.countP_cons]

theorem messageIn_negative (sid nrc : UInt8) : (messageIn (negativeFrame sid nrc)).byte 0 = 0x7F := by
  have hlen : (negative sid nrc).len = 3 := rfl
  have hframe : negativeFrame sid nrc = [3, 0x7F, sid, nrc, 0, 0, 0, 0] := by
    unfold negativeFrame Isotp.sfFrame
    rw [hlen, if_pos (by decide)]
    rfl
  rw [hframe]
  rfl

theorem stray_frame {cfg : Core.Config V} {sender : Isotp.Station} {k : ℕ} {receiver : Core.Ctx}
    (hframe : (Isotp.framesOf sender.log)[k]? = none) : ¬ Stray cfg sender k receiver := by
  rintro ⟨frame, hmem, -⟩
  rw [hframe] at hmem
  cases hmem

theorem negative_not_stray {cfg : Core.Config V} {sender : Isotp.Station} {k : ℕ} {receiver : Core.Ctx}
    {frame : List UInt8} (hframe : (Isotp.framesOf sender.log)[k]? = some frame)
    (hnegative : carriesNegative frame = true) : ¬ Stray cfg sender k receiver := by
  rintro ⟨frame', hframe', -, -, hfirst, -⟩
  obtain rfl := Option.some.inj (hframe.symm.trans hframe')
  have hbytes : frame = negativeFrame (frame.getD 2 0) (frame.getD 3 0) := of_decide_eq_true hnegative
  rw [hbytes] at hfirst
  exact hfirst (messageIn_negative _ _)

theorem testerPresent_found {W : Type} (cfg : Core.Config W) :
    Core.findService cfg Core.sidTesterPresent ≠ none := by
  intro hnone
  unfold Core.findService at hnone
  cases huser : cfg.userServices.find? fun entry => entry.sid = Core.sidTesterPresent with
  | some entry =>
    rw [huser] at hnone
    exact Option.some_ne_none _ hnone
  | none =>
    rw [huser] at hnone
    have hmem : Core.sidTesterPresent ∈ (Core.coreServices cfg).map Core.ServiceEntry.sid := by
      rw [Core.coreServices_sids]
      decide
    obtain ⟨service, hcore, hsid⟩ := List.mem_map.mp hmem
    exact List.find?_eq_none.mp hnone service hcore (decide_eq_true hsid)

/-- Both kinds of frames carry a message that the receiver has no service for and does not wait for. -/
theorem unserved_message (hrej : Rejects d.config) (s : State V) {sender : Isotp.Station} {k : ℕ}
    {frame : List UInt8} (hframe : (Isotp.framesOf sender.log)[k]? = some frame)
    (hunasked : Unasked sender k s.ctx)
    (h : carriesNegative frame = true ∨ Stray d.wired sender k s.ctx) :
    ∃ m, frame = Isotp.sfFrame m ∧ Isotp.IsShort m.bytes ∧ Core.IsRequest s m ∧
      Core.findService d.wired (m.byte 0) = none := by
  rcases h with hnegative | ⟨frame', hframe', hsf, hshort, -, hnone, hstray⟩
  · have hbytes : frame = negativeFrame (frame.getD 2 0) (frame.getD 3 0) := of_decide_eq_true hnegative
    refine ⟨negative (frame.getD 2 0) (frame.getD 3 0), hbytes, ⟨List.cons_ne_nil _ _, ?_⟩,
      ⟨List.cons_ne_nil _ _, hunasked frame hframe hnegative, ?_⟩, hrej.unserved⟩
    · exact (by decide : 3 ≤ 7)
    · exact decide_eq_false fun h => absurd h.1 (by decide : ¬ (0x7F : UInt8) = Core.sidTesterPresent)
  · obtain rfl := Option.some.inj (hframe.symm.trans hframe')
    have hnone' := Option.isNone_iff_eq_none.mp hnone
    refine ⟨messageIn frame, hsf, hshort, ⟨hshort.1, hstray, ?_⟩, hnone'⟩
    refine decide_eq_false fun h => ?_
    rw [h.1] at hnone'
    exact testerPresent_found _ hnone'

/-- What arrives at a device, and what that sends on its way. -/
theorem arrival_answered (htakes : d.TakesAll) (hrej : Rejects d.config) (s : State V) {sender : Isotp.Station} {k : ℕ}
    {frame : List UInt8} (beyond : ℕ → UInt8) (hframe : (Isotp.framesOf sender.log)[k]? = some frame)
    (hpaired : s.world.transport.node.iso.rxId = sender.node.iso.txId)
    (hcan : s.world.transport.node.iso.canSend = true) (hunasked : Unasked sender k s.ctx) :
    let f := Isotp.RxFrame.ofBytes sender.node.iso.txId frame beyond
    ∃ os, (d.step s (.rxCallback f)).1.world.transport.log = s.world.transport.log ++ os ∧
      ((if carriesNegative frame = true then 1 else 0) +
        if Stray d.wired sender k s.ctx then 1 else 0) ≤
          (Isotp.framesOf os).countP carriesNegative := by
  intro f
  by_cases h : carriesNegative frame = true ∨ Stray d.wired sender k s.ctx
  · obtain ⟨m, rfl, hshort, hreq, hnone⟩ := unserved_message hrej s hframe hunasked h
    obtain ⟨os, hlog, hcount⟩ := unserved_answered htakes hrej.room s beyond hcan hshort hreq hnone
    have hone : ((if carriesNegative (Isotp.sfFrame m) = true then 1 else 0) +
        if Stray d.wired sender k s.ctx then 1 else 0) ≤ 1 := by
      split_ifs with hnegative hstray
      · exact absurd hstray (negative_not_stray hframe hnegative)
      all_goals simp
    rw [hpaired] at hlog
    exact ⟨os, hlog, hone.trans hcount⟩
  · obtain ⟨hplain, hstray⟩ := not_or.mp h
    obtain ⟨os, hlog⟩ := step_log d s (.rxCallback f)
    refine ⟨os, hlog, ?_⟩
    rw [if_neg hplain, if_neg hstray]
    exact Nat.zero_le _

theorem busStep_negatives {dc : Device V} {de : Device V'} (hC : dc.TakesAll) (hE : de.TakesAll)
    (hc : Rejects dc.config) (he : Rejects de.config) {b : Bus V V'} (hlink : b.link.Wired)
    (act : BusAct V V') (hkeeps : act.Keeps) (hact : Unawaited b act) :
    b.negatives + (if BringsStray dc de b act then 1 else 0) ≤
      (busStep dc de b act).1.negatives := by
  have hkC : b.fromClient.gone ≤ (Isotp.framesOf b.client.world.transport.log).length := hlink.goneA
  have hkE : b.fromEcu.gone ≤ (Isotp.framesOf b.ecu.world.transport.log).length := hlink.goneB
  unfold Bus.negatives
  cases act with
  | client op hown =>
    obtain ⟨os, hlog⟩ := step_log dc b.client op
    have hgrown := inFlight_grown hkC hlog
    have hown' : ¬ BringsStray dc de b (.client op hown) := not_false
    rw [if_neg hown']
    simp only [busStep, hgrown]
    omega
  | ecu op hown =>
    obtain ⟨os, hlog⟩ := step_log de b.ecu op
    have hgrown := inFlight_grown hkE hlog
    have hown' : ¬ BringsStray dc de b (.ecu op hown) := not_false
    rw [if_neg hown']
    simp only [busStep, hgrown]
    omega
  | toEcu beyond =>
    cases hframe : (Isotp.framesOf b.client.world.transport.log)[b.fromClient.gone]? with
    | none =>
      have hnone : ¬ BringsStray dc de b (.toEcu beyond) := stray_frame hframe
      rw [if_neg hnone]
      simp only [busStep, nextFrame, hframe]
      omega
    | some frame =>
      obtain ⟨os, hlog, hcount⟩ := arrival_answered hE he b.ecu beyond hframe hlink.paired.toB
        hlink.paired.canSendB hact
      have hnext := inFlight_next hframe
      have hgrown := inFlight_grown hkE hlog
      have hstray : (if BringsStray dc de b (.toEcu beyond) then 1 else 0) =
        if Stray de.wired b.client.world.transport b.fromClient.gone b.ecu.ctx then 1 else 0 := rfl
      rw [hstray]
      simp only [busStep, nextFrame, hframe, Isotp.Way.arrived, hgrown]
      omega
  | toClient beyond =>
    cases hframe : (Isotp.framesOf b.ecu.world.transport.log)[b.fromEcu.gone]? with
    | none =>
      have hnone : ¬ BringsStray dc de b (.toClient beyond) := stray_frame hframe
      rw [if_neg hnone]
      simp only [busStep, nextFrame, hframe]
      omega
    | some frame =>
      obtain ⟨os, hlog, hcount⟩ := arrival_answered hC hc b.client beyond hframe hlink.paired.toA
        hlink.paired.canSendA hact
      have hnext := inFlight_next hframe
      have hgrown := inFlight_grown hkC hlog
      have hstray : (if BringsStray dc de b (.toClient beyond) then 1 else 0) =
        if Stray dc.wired b.ecu.world.transport b.fromEcu.gone b.client.ctx then 1 else 0 := rfl
      rw [hstray]
      simp only [busStep, nextFrame, hframe, Isotp.Way.arrived, hgrown]
      omega
  | loseToEcu | loseToClient => exact hkeeps.elim

/-! ### Runs -/

variable {dc : Device V} {de : Device V'}

theorem busStep_wired (b : Bus V V') (act : BusAct V V') (h : b.link.Wired) :
    (busStep dc de b act).1.link.Wired := by
  obtain ⟨linkActs, hfollows⟩ := busStep_follows dc de b act
  have hlink : exec _ b.link linkActs = (busStep dc de b act).1.link := hfollows.link
  rw [← hlink]
  exact exec_invariant (fun l linkAct hl _ => Isotp.linkStep_wired _ _ l linkAct hl) h
    (Along.trivial _ linkActs)

theorem busRun_wired (dc : Device V) (de : Device V') (memC memE : Isotp.Node) (idC idE : UInt32)
    (appC : V) (appE : V') (acts : List (BusAct V V')) :
    (exec (busStep dc de) (busStart dc de memC memE idC idE appC appE) acts).link.Wired := by
  have hstart : (busStart dc de memC memE idC idE appC appE).link.Wired := by
    rw [start_link]
    exact Isotp.linkStart_wired _ _ _ _
  exact exec_invariant (I := fun b : Bus V V' => b.link.Wired) (fun b act h _ => busStep_wired b act h)
    hstart (Along.trivial _ acts)

theorem negatives_run (hC : dc.TakesAll) (hE : de.TakesAll) (hc : Rejects dc.config)
    (he : Rejects de.config) {acts : List (BusAct V V')} (hkeeps : ∀ act ∈ acts, act.Keeps)
    {b : Bus V V'} (hlink : b.link.Wired) (h : Along (busStep dc de) Unawaited b acts) :
    b.negatives + straysIn dc de b acts ≤ (exec (busStep dc de) b acts).negatives := by
  induction acts generalizing b with
  | nil => exact le_refl _
  | cons act acts ih =>
    obtain ⟨hact, hacts⟩ := List.forall_mem_cons.mp hkeeps
    have hfirst := busStep_negatives hC hE hc he hlink act hact h.1
    have hrest := ih hacts (busStep_wired b act hlink) h.2
    rw [straysIn, exec_cons]
    omega

/-- As long as no frame is lost and no negative response comes to a client that waits for it, the
number of those on their way never goes down, and each stray message adds one: two devices echo it for
ever. -/
theorem echo_never_dies (dc : Device V) (de : Device V') (memC memE : Isotp.Node) (idC idE : UInt32)
    (appC : V) (appE : V') (acts acts' : List (BusAct V V')) (hC : dc.TakesAll) (hE : de.TakesAll)
    (hc : Rejects dc.config) (he : Rejects de.config) (hkeeps : ∀ act ∈ acts', act.Keeps) :
    let b := exec (busStep dc de) (busStart dc de memC memE idC idE appC appE) acts
    Along (busStep dc de) Unawaited b acts' →
      b.negatives + straysIn dc de b acts' ≤ (exec (busStep dc de) b acts').negatives := by
  intro b hunawaited
  exact negatives_run hC hE hc he hkeeps (busRun_wired dc de memC memE idC idE appC appE acts)
    hunawaited

/-- The ECU sends one response unasked, and the two devices then answer each other. -/
def unaskedResponse : List (BusAct Unit Unit) :=
  [.ecu (.fill 0 [0x50, 0x03]) trivial, .ecu (.sendResponse 2) trivial, .toClient fun _ => 0,
    .toEcu fun _ => 0, .toClient fun _ => 0]

theorem plainDevice_rejects : Rejects plainDevice.config where
  room := by decide
  noService := by decide

theorem unaskedResponse_echoes :
    let b := busStart plainDevice plainDevice Isotp.zeroNode Isotp.zeroNode 0x7E0 0x7E8 () ()
    straysIn plainDevice plainDevice b unaskedResponse = 1 ∧
      1 ≤ (exec (busStep plainDevice plainDevice) b unaskedResponse).negatives := by
  intro b
  have hstrays : straysIn plainDevice plainDevice b unaskedResponse = 1 := by decide +kernel
  have h := echo_never_dies plainDevice plainDevice Isotp.zeroNode Isotp.zeroNode 0x7E0 0x7E8 () () []
    unaskedResponse plainDevice_takesAll plainDevice_takesAll plainDevice_rejects plainDevice_rejects
      (by decide)
      (show Along (busStep plainDevice plainDevice) Unawaited b unaskedResponse from
        ⟨by decide +kernel, by decide +kernel, by decide +kernel, by decide +kernel, by decide +kernel,
          trivial⟩)
  refine ⟨hstrays, ?_⟩
  rw [← hstrays]
  exact (Nat.le_add_left _ _).trans h

end UdsLib.Device
