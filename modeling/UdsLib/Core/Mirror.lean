import UdsLib.Core.Wrapping

/-! Requests for a download and for an upload side by side. Their handlers do the same but for the
format byte, which a download checks before it parses the fields, and the dispatcher in front of them
treats both requests alike. -/
namespace UdsLib.Core
open Bytes Machine Prog Services

variable {W : Type} {cfg : Config W} {u v : Sys W} {payload : List UInt8}

/-- A request of the service `sid`. -/
def requestOn (sid : UInt8) (payload : List UInt8) (h : payload.length < 65535) : Sdu :=
  ⟨sid :: payload, by rw [List.length_cons]; omega⟩

/-- Both callbacks are null, or both are there and behave alike. -/
structure SameCallbacks (cfg : Config W) : Prop where
  set : cfg.isSet .fnRequestDownload = cfg.isSet .fnRequestUpload
  alike : cfg.isSet .fnRequestDownload = true → ∀ c addr size w,
    cfg.app c (.requestDownload addr size) w = cfg.app c (.requestUpload addr size) w

/-- A message about a download as one about an upload. -/
def mirrored : List UInt8 → List UInt8
  | 0x7F :: 0x34 :: rest => 0x7F :: 0x35 :: rest
  | 0x74 :: rest => 0x75 :: rest
  | data => data

/-- Started in `u`, two programs tell the application the same ranges, do the same to the byte of the
sequence and give the same answer but for the SID. -/
structure SameButSid {α : Type} (m n : M W α) (u : Sys W) : Prop where
  told : toldOf (m.outputs u) = toldOf (n.outputs u)
  sequence : (m.final u).ctx.flashSequence = (n.final u).ctx.flashSequence
  sent : (sentOf (m.outputs u)).map mirrored = sentOf (n.outputs u)
  withheld : .withheld ∈ m.outputs u ↔ .withheld ∈ n.outputs u

/-- The handlers of a download and an upload do so with the same payload. -/
def UploadMirrors (cfg : Config W) (u : Sys W) (payload : List UInt8) (h : payload.length < 65535) :
    Prop :=
  SameButSid (handleRequestDownload cfg (requestOn sidRequestDownload payload h))
    (handleRequestUpload cfg (requestOn sidRequestUpload payload h)) u

/-- What `fn_is_safe` is asked about a request. -/
def safetyCall (d : Sdu) : Call := .isSafe (d.byte 0) (d.slice 0 d.bytes.length)

/-- The core services serve both requests, `fn_is_safe` does not tell them apart, and `fn_tp_send`
returns 0 or a negative error code. -/
structure SameSurroundings (cfg : Config W) (payload : List UInt8) (h : payload.length < 65535) :
    Prop where
  core : ∀ entry ∈ cfg.userServices, entry.sid ≠ sidRequestDownload ∧ entry.sid ≠ sidRequestUpload
  safe : cfg.isSet .fnIsSafe = true → ∀ c w,
    cfg.app c (safetyCall (requestOn sidRequestDownload payload h)) w =
      cfg.app c (safetyCall (requestOn sidRequestUpload payload h)) w
  send : ∀ c data w, (cfg.fnTpSend c data w).1 ≤ 0

/-- The whole stack does so with the two requests. -/
def RequestsMirror (cfg : Config W) (s : Sys W) (payload : List UInt8) (h : payload.length < 65535) :
    Prop :=
  SameButSid (inputSdu cfg (.bytes (requestOn sidRequestDownload payload h)))
    (inputSdu cfg (.bytes (requestOn sidRequestUpload payload h))) s

/-! ### The plans -/

theorem requestOn_byte {sid : UInt8} {h : payload.length < 65535} (i : ℕ) :
    (requestOn sid payload h).byte (i + 1) = payload.getD i 0 := rfl

theorem requestOn_length {sid : UInt8} {h : payload.length < 65535} :
    (requestOn sid payload h).bytes.length = payload.length + 1 := rfl

/-- The fields do not depend on the SID. -/
theorem requestOn_fields (sid sid' : UInt8) (h : payload.length < 65535) (format : UInt8) :
    fieldsAt (requestOn sid payload h) 3 format = fieldsAt (requestOn sid' payload h) 3 format := by
  have hslice (off n : ℕ) (hoff : 1 ≤ off) : slice (requestOn sid payload h).byte off n =
      slice (requestOn sid' payload h).byte off n := by
    obtain ⟨k, rfl⟩ := Nat.exists_eq_add_of_le hoff
    apply slice_congr
    intro i _
    rw [Nat.add_assoc, Nat.add_comm 1]
    rfl
  unfold fieldsAt
  dsimp only
  rw [hslice 3 _ (by omega), hslice _ _ (by omega)]
  rfl

/-- With a format byte in range, or too few bytes, both make the same plan. -/
theorem plans_agree (hset : cfg.isSet .fnRequestDownload = cfg.isSet .fnRequestUpload)
    (h : payload.length < 65535) (hok : 3 ≤ payload.length → ValidFormat (payload.getD 1 0)) :
    planRequestDownload cfg (requestOn sidRequestDownload payload h) =
      planRequestUpload cfg (requestOn sidRequestUpload payload h) := by
  unfold planRequestDownload planRequestUpload planOpening
  rw [requestOn_length, requestOn_length, requestOn_byte, requestOn_byte, hset,
    requestOn_fields sidRequestDownload sidRequestUpload h]
  by_cases hshort : payload.length + 1 < 4
  · rw [if_pos hshort, if_pos hshort]
  · have hv := hok (by omega)
    rw [if_neg hshort, if_neg hshort, if_neg (not_not_intro hv), if_neg (not_not_intro hv)]

/-! ### The answers -/

theorem sendNrc_sequence (sid nrc : UInt8) (s : Sys W) :
    ((sendNrc cfg sid nrc).final s).ctx.flashSequence = s.ctx.flashSequence :=
  (sendNrc_unmoved sid nrc s).sequence

/-- The same NRC. -/
theorem deny_mirrors (nrc : UInt8) (u : Sys W) :
    SameButSid (sendNrc cfg sidRequestDownload nrc) (sendNrc cfg sidRequestUpload nrc) u := by
  constructor
  · rw [sendNrc_tells, sendNrc_tells]
  · rw [sendNrc_sequence, sendNrc_sequence]
  · rw [sendNrc_sent, sendNrc_sent]
    split_ifs
    · rfl
    · rfl
  · exact iff_of_false sendNrc_not_withheld sendNrc_not_withheld

theorem accepted_tells (sid : UInt8) : TellsNone (transferAccepted cfg sid) :=
  tellsNone_composable.bind (fun _ => rfl) fun _ => respond_tells _ _ _

theorem accepted_sequence (sid : UInt8) (u : Sys W) :
    ((transferAccepted cfg sid).final u).ctx.flashSequence = 0 := by
  let answer := writeTx cfg 0 [sid + responseOffset, 0x20, 0x00, 0x00, 0x04, 0x00] >>= fun _ =>
    sendResponse cfg 6
  have hkept : Keeps Unmoved answer := respond_unmoved _ 6
  exact (hkept { u with ctx := { u.ctx with flashSequence := 0 } }).sequence

/-- The same parameters of the transfer. -/
theorem accepted_mirrors (u : Sys W) :
    SameButSid (transferAccepted cfg sidRequestDownload) (transferAccepted cfg sidRequestUpload) u := by
  let v : Sys W := { u with ctx := { u.ctx with flashSequence := 0 } }
  have hanswer (sid : UInt8) : ∃ faults ret, (∀ e ∈ faults, ∃ f, e = .fault f) ∧
      (transferAccepted cfg sid).outputs u = faults ++
        if 6 ≤ cfg.txBufferSize then
          if u.ctx.suppressPosResp = true then [.withheld]
          else [.tpSend .response [sid + responseOffset, 0x20, 0x00, 0x00, 0x04, 0x00] ret]
        else [] := by
    have hlen : [sid + responseOffset, 0x20, 0x00, 0x00, 0x04, 0x00].length = (6 : UInt16).toNat := rfl
    exact respond_answer cfg hlen v
  obtain ⟨faults, ret, hfaults, hdown⟩ := hanswer sidRequestDownload
  obtain ⟨faults', ret', hfaults', hup⟩ := hanswer sidRequestUpload
  have hno {es : List Event} (hes : ∀ e ∈ es, ∃ f, e = .fault f) : .withheld ∉ es := by
    intro he
    obtain ⟨f, hf⟩ := hes _ he
    cases hf
  constructor
  · rw [accepted_tells, accepted_tells]
  · rw [accepted_sequence, accepted_sequence]
  · rw [hdown, hup, sentOf_append, sentOf_append, sentOf_faults hfaults, sentOf_faults hfaults']
    split_ifs
    · rfl
    · rfl
    · rfl
  · rw [hdown, hup, List.mem_append, List.mem_append, or_iff_right (hno hfaults),
      or_iff_right (hno hfaults')]
    split_ifs
    · exact Iff.rfl
    · exact iff_of_false (by simp) (by simp)
    · exact Iff.rfl

/-- What an opening does with the reply of the application. -/
def replied (cfg : Config W) (sid : UInt8) (reply : Reply) : M W ℤ :=
  if reply.ret < 0 then sendNrc cfg sid (nrcOf reply.ret) else transferAccepted cfg sid

theorem openRange_run (cfg : Config W) (sid : UInt8) {call : Call} {u : Sys W} {r : Reply × W}
    (hr : cfg.app u.ctx call u.world = r) :
    (openRange cfg sid call).final u = (replied cfg sid r.1).final { u with world := r.2 } ∧
      (openRange cfg sid call).outputs u =
        .call call r.1.ret :: (replied cfg sid r.1).outputs { u with world := r.2 } := by
  subst hr
  exact ⟨rfl, rfl⟩

theorem replied_mirrors (reply : Reply) (u : Sys W) :
    SameButSid (replied cfg sidRequestDownload reply) (replied cfg sidRequestUpload reply) u := by
  unfold replied
  split_ifs
  · exact deny_mirrors _ u
  · exact accepted_mirrors u

/-- The same range, told to callbacks that behave alike. -/
theorem open_mirrors (hsame : SameCallbacks cfg) (hset : cfg.isSet .fnRequestDownload = true)
    (addr size : UInt32) (u : Sys W) :
    SameButSid (openRange cfg sidRequestDownload (.requestDownload addr size))
      (openRange cfg sidRequestUpload (.requestUpload addr size)) u := by
  obtain ⟨hfinal, houtputs⟩ :=
    openRange_run cfg sidRequestDownload (hsame.alike hset u.ctx addr size u.world)
  let r := cfg.app u.ctx (.requestUpload addr size) u.world
  have hreply : cfg.app u.ctx (.requestUpload addr size) u.world = r := rfl
  obtain ⟨hfinal', houtputs'⟩ := openRange_run cfg sidRequestUpload hreply
  have hanswer : SameButSid (replied cfg sidRequestDownload r.1) (replied cfg sidRequestUpload r.1)
      { u with world := r.2 } := replied_mirrors r.1 _
  constructor
  · rw [openRange_tells, openRange_tells]
    rfl
  · rw [hfinal, hfinal']
    exact hanswer.sequence
  · rw [houtputs, houtputs']
    exact hanswer.sent
  · rw [houtputs, houtputs', List.mem_cons, List.mem_cons, or_iff_right nofun, or_iff_right nofun]
    exact hanswer.withheld

/-- The handlers mirror each other, unless the format byte is out of range: a download answers it
with NRC 0x31, an upload with NRC 0x13. -/
theorem handlers_mirror_iff (hsame : SameCallbacks cfg) (u : Sys W) (h : payload.length < 65535) :
    UploadMirrors cfg u payload h ↔
      (3 ≤ cfg.txBufferSize → 3 ≤ payload.length → ValidFormat (payload.getD 1 0)) := by
  let down := requestOn sidRequestDownload payload h
  let up := requestOn sidRequestUpload payload h
  have hagree (hok : 3 ≤ payload.length → ValidFormat (payload.getD 1 0)) :
      UploadMirrors cfg u payload h := by
    have hplans := plans_agree hsame.set h hok
    unfold UploadMirrors
    rw [requestDownload_follows, requestUpload_follows, ← hplans]
    cases hplan : planRequestDownload cfg down with
    | deny nrc => exact deny_mirrors nrc u
    | ask addr size =>
      have hset : cfg.isSet .fnRequestDownload = true := by
        unfold planRequestDownload planOpening at hplan
        by_contra hnone
        grind
      exact open_mirrors hsame hset addr size u
  by_cases hok : 3 ≤ payload.length → ValidFormat (payload.getD 1 0)
  · exact iff_of_true (hagree hok) fun _ => hok
  · obtain ⟨hlen, hv⟩ := Classical.not_imp.mp hok
    have hlong : ¬ payload.length + 1 < 4 := by omega
    have hdown : handleRequestDownload cfg down =
        sendNrc cfg sidRequestDownload nrcRequestOutOfRange := by
      rw [requestDownload_follows]
      unfold planRequestDownload planOpening
      rw [requestOn_length, requestOn_byte, if_neg hlong, if_pos hv]
      rfl
    have hup : handleRequestUpload cfg up = sendNrc cfg sidRequestUpload nrcIncorrectLength := by
      rw [requestUpload_follows]
      unfold planRequestUpload planOpening
      rw [requestOn_length, requestOn_byte, if_neg hlong, if_pos hv]
      rfl
    unfold UploadMirrors
    rw [hdown, hup]
    constructor
    · intro hmirrors htx
      have hsent := hmirrors.sent
      rw [sendNrc_sent, sendNrc_sent, if_pos htx, if_pos htx] at hsent
      exact absurd hsent (by decide)
    · intro himp
      have htx : ¬ 3 ≤ cfg.txBufferSize := fun htx => hv (himp htx hlen)
      have hsilent (sid nrc : UInt8) : (sendNrc cfg sid nrc).outputs u = [] := by
        obtain ⟨faults, -, ret, houtputs⟩ := sendNrc_outputs cfg sid nrc u
        rw [houtputs, if_neg htx]
      constructor
      · rw [hsilent, hsilent]
      · rw [sendNrc_sequence, sendNrc_sequence]
      · rw [hsilent, hsilent]
        rfl
      · rw [hsilent, hsilent]

/-! ### The requests -/

/-- Programs that wrap others mirror each other if and only if those do. -/
theorem Wraps.mirror_iff {α β : Type} {m n : M W α} {m' n' : M W β} {s : Sys W}
    (hm : Wraps m s m' u) (hn : Wraps n s n' u) : SameButSid m n s ↔ SameButSid m' n' u := by
  constructor
  · intro h
    constructor
    · exact hm.told.symm.trans (h.told.trans hn.told)
    · exact hm.sequence.symm.trans (h.sequence.trans hn.sequence)
    · rw [← hm.sent, ← hn.sent]
      exact h.sent
    · exact hm.withheld.symm.trans (h.withheld.trans hn.withheld)
  · intro h
    constructor
    · exact hm.told.trans (h.told.trans hn.told.symm)
    · exact hm.sequence.trans (h.sequence.trans hn.sequence.symm)
    · rw [hm.sent, hn.sent]
      exact h.sent
    · exact hm.withheld.trans (h.withheld.trans hn.withheld.symm)

/-- Programs that wrap the same refusal mirror each other, wherever it is sent from. -/
theorem Wraps.deny {α : Type} {m n : M W α} {nrc : UInt8} {s : Sys W}
    (hm : Wraps m s (sendNrc cfg sidRequestDownload nrc) u)
    (hn : Wraps n s (sendNrc cfg sidRequestUpload nrc) v)
    (hsequence : u.ctx.flashSequence = v.ctx.flashSequence) : SameButSid m n s := by
  constructor
  · rw [hm.told, hn.told, sendNrc_tells, sendNrc_tells]
  · rw [hm.sequence, hn.sequence, sendNrc_sequence, sendNrc_sequence, hsequence]
  · rw [hm.sent, hn.sent, sendNrc_sent, sendNrc_sent]
    split_ifs
    · rfl
    · rfl
  · rw [hm.withheld, hn.withheld]
    exact iff_of_false sendNrc_not_withheld sendNrc_not_withheld

section Requests

variable {s t : Sys W} (h : payload.length < 65535)

/-- The entry of the download. -/
abbrev downloadService (cfg : Config W) : Service W :=
  coreService sidRequestDownload 4 (handleRequestDownload cfg) none

/-- The entry of the upload. -/
abbrev uploadService (cfg : Config W) : Service W :=
  coreService sidRequestUpload 4 (handleRequestUpload cfg) none

theorem findService_of_core {sid : UInt8} (hown : ∀ entry ∈ cfg.userServices, entry.sid ≠ sid) :
    findService cfg sid = (coreServices cfg).find? fun entry => entry.sid = sid := by
  have hnone : (cfg.userServices.find? fun entry => entry.sid = sid) = none :=
    List.find?_eq_none.mpr fun entry hentry => by simpa using hown entry hentry
  unfold findService
  rw [hnone]

/-- The dispatcher finds one entry for each. -/
theorem opening_services (hown : ∀ entry ∈ cfg.userServices,
    entry.sid ≠ sidRequestDownload ∧ entry.sid ≠ sidRequestUpload) :
    findService cfg sidRequestDownload = some (downloadService cfg) ∧
      findService cfg sidRequestUpload = some (uploadService cfg) := by
  rw [findService_of_core fun entry hentry => (hown entry hentry).1,
    findService_of_core fun entry hentry => (hown entry hentry).2]
  exact ⟨rfl, rfl⟩

/-- Both requests pass the same checks. -/
theorem passes_agree (hround : SameSurroundings cfg payload h) (t : Sys W) (check : Check) :
    check.passes cfg t (downloadService cfg) (requestOn sidRequestDownload payload h) =
      check.passes cfg t (uploadService cfg) (requestOn sidRequestUpload payload h) := by
  cases check with
  | safety =>
    unfold Check.passes
    cases hset : cfg.isSet .fnIsSafe with
    | false => rfl
    | true =>
      have hsafe := hround.safe hset t.ctx t.world
      exact congrArg (fun r : Reply × W => !true || decide (r.1.ret ≠ 0)) hsafe
  | _ => rfl

theorem firstFailing_agree (hround : SameSurroundings cfg payload h) (t : Sys W) :
    firstFailing cfg t (requestOn sidRequestDownload payload h) =
      firstFailing cfg t (requestOn sidRequestUpload payload h) := by
  obtain ⟨hdown, hup⟩ := opening_services hround.core
  have hdown' : findService cfg ((requestOn sidRequestDownload payload h).byte 0) = _ := hdown
  have hup' : findService cfg ((requestOn sidRequestUpload payload h).byte 0) = _ := hup
  unfold firstFailing
  rw [hdown', hup']
  simp only [passes_agree h hround]

/-- Both handlers start in the same state. -/
theorem atHandler_agree (hround : SameSurroundings cfg payload h) (t : Sys W) :
    atHandler cfg (downloadService cfg) (requestOn sidRequestDownload payload h) t =
      atHandler cfg (uploadService cfg) (requestOn sidRequestUpload payload h) t := by
  unfold atHandler safetyGate
  rw [final_ite, final_ite]
  by_cases hset : cfg.isSet .fnIsSafe = true
  · rw [if_neg (not_not_intro hset), if_neg (not_not_intro hset)]
    have hsafe := hround.safe hset t.ctx t.world
    exact congrArg (fun r : Reply × W => { t with world := r.2 }) hsafe
  · rw [if_pos hset, if_pos hset]
    rfl

/-- The dispatcher refuses both requests, or hands them to handlers that decide. -/
theorem handleRequest_mirrors (hround : SameSurroundings cfg payload h) (t : Sys W) :
    let down := requestOn sidRequestDownload payload h
    let up := requestOn sidRequestUpload payload h
    SameButSid (handleRequest cfg down) (handleRequest cfg up) t ↔
      (firstFailing cfg t down = none →
        UploadMirrors cfg (atHandler cfg (downloadService cfg) down t) payload h) := by
  intro down up
  obtain ⟨hdown, hup⟩ := opening_services hround.core
  have hleads := handleRequest_leads cfg t (d := down) (List.cons_ne_nil _ _)
  have hleads' := handleRequest_leads cfg t (d := up) (List.cons_ne_nil _ _)
  rw [← firstFailing_agree h hround t] at hleads'
  cases hfail : firstFailing cfg t down with
  | some check =>
    rw [hfail] at hleads hleads'
    obtain ⟨es, w, hgate, -, hrefuses⟩ := hleads
    obtain ⟨es', w', hgate', -, hrefuses'⟩ := hleads'
    have hwraps := (hrefuses.wraps (dispatch_mute _ hgate.mute)).trans (reject_wraps _ check.nrc w)
    have hwraps' :=
      (hrefuses'.wraps (dispatch_mute _ hgate'.mute)).trans (reject_wraps _ check.nrc w')
    refine iff_of_true (hwraps.deny hwraps' ?_) nofun
    rw [hgate.1, hgate'.1]
  | none =>
    rw [hfail] at hleads hleads'
    obtain ⟨service, hfound, hrun⟩ := hleads
    obtain ⟨service', hfound', hrun'⟩ := hleads'
    obtain rfl := Option.some.inj (hdown.symm.trans hfound)
    obtain rfl := Option.some.inj (hup.symm.trans hfound')
    have hmem : downloadService cfg ∈ coreServices cfg := by simp [coreServices]
    have hmem' : uploadService cfg ∈ coreServices cfg := by simp [coreServices]
    have hgate : Gated t _ (atHandler cfg (downloadService cfg) down t) := safetyGate_gated t
    have hgate' : Gated t _ (atHandler cfg (uploadService cfg) up t) := safetyGate_gated t
    have hwraps := (hrun.wraps (dispatch_mute _ hgate.mute)).trans
      (executeHandler_wraps (core_done hround.send hmem down _))
    have hwraps' := (hrun'.wraps (dispatch_mute _ hgate'.mute)).trans
      (executeHandler_wraps (core_done hround.send hmem' up _))
    rw [← atHandler_agree h hround t] at hwraps'
    exact (hwraps.mirror_iff hwraps').trans ⟨fun hmirrors _ => hmirrors, fun hmirrors => hmirrors rfl⟩

/-- The whole stack treats both requests alike if and only if their handlers do, should they run. -/
theorem requests_mirror_iff (hround : SameSurroundings cfg payload h) (s : Sys W) :
    RequestsMirror cfg s payload h ↔
      ∀ served ∈ servedBy cfg s (requestOn sidRequestDownload payload h),
        UploadMirrors cfg served.2 payload h := by
  let down := requestOn sidRequestDownload payload h
  let up := requestOn sidRequestUpload payload h
  have hopening (sid : UInt8) (hsid : sid ≠ 0 ∧ sid &&& 0x40 = 0 ∧ sid ≠ sidTesterPresent) :
      IsRequest s (requestOn sid payload h) := isRequest_of_bit s hsid.1 hsid.2.1 hsid.2.2
  have hreq : IsRequest s down := hopening sidRequestDownload (by decide)
  have hreq' : IsRequest s up := hopening sidRequestUpload (by decide)
  unfold RequestsMirror
  by_cases hp : s.ctx.p2MsgPending = true
  · have hnone : servedBy cfg s down = none := by
      unfold servedBy
      exact if_neg fun hchecks => absurd hp (Bool.eq_false_iff.mp hchecks.2.1)
    have hbusy {d : Sdu} (hreq : IsRequest s d) : Wraps (inputSdu cfg (.bytes d)) s
        (sendNrc cfg (d.byte 0) nrcBusyRepeatRequest) (arrived cfg s) := by
      have hreject : busyAnswer cfg d = reject cfg (d.byte 0) nrcBusyRepeatRequest :=
        if_neg (Bool.eq_false_iff.mp hreq.loud)
      have htreats := step_busy cfg hp hreq.nonempty
      rw [hreject] at htreats
      exact htreats.wraps.trans (reject_wraps _ _ _)
    refine iff_of_true ((hbusy hreq).deny (hbusy hreq') rfl) fun served hserved => ?_
    rw [hnone] at hserved
    cases hserved
  · have hidle : s.ctx.p2MsgPending = false := Bool.eq_false_iff.mpr hp
    have hwraps {d : Sdu} (hreq : IsRequest s d) :
        Wraps (inputSdu cfg (.bytes d)) s (handleRequest cfg d) (entered cfg s) :=
      (step_started cfg hidle hreq.unanswering hreq.nonempty).wraps.trans
        (startRequest_wraps cfg s d)
    obtain ⟨hdown, -⟩ := opening_services hround.core
    have hserved : servedBy cfg s down = (reached cfg down s).map fun service =>
        (service, atHandler cfg service down (entered cfg s)) :=
      if_pos ⟨hreq.nonempty, hidle, hreq.unanswering, fun entry hentry => (hround.core entry hentry).1⟩
    have hfound : findService cfg (down.byte 0) = some (downloadService cfg) := hdown
    refine ((hwraps hreq).mirror_iff (hwraps hreq')).trans
      ((handleRequest_mirrors h hround (entered cfg s)).trans ?_)
    rw [hserved]
    unfold reached
    rw [hfound]
    cases hfail : firstFailing cfg (entered cfg s) down with
    | none => simp [down]
    | some check => simp

/-- An upload mirrors a download, in the handlers and in the whole stack, unless a handler runs on a
format byte out of range: a download answers it with NRC 0x31, an upload with NRC 0x13. -/
theorem upload_mirrors_iff (cfg : Config W) (hsame : SameCallbacks cfg) (s : Sys W)
    (payload : List UInt8) (h : payload.length < 65535) :
    (UploadMirrors cfg s payload h ↔
      (3 ≤ cfg.txBufferSize → 3 ≤ payload.length → ValidFormat (payload.getD 1 0))) ∧
    (SameSurroundings cfg payload h → (RequestsMirror cfg s payload h ↔
      ((servedBy cfg s (requestOn sidRequestDownload payload h)).isSome = true →
        3 ≤ cfg.txBufferSize → 3 ≤ payload.length → ValidFormat (payload.getD 1 0)))) := by
  refine ⟨handlers_mirror_iff hsame s h, fun hround => ?_⟩
  rw [requests_mirror_iff h hround s]
  cases hserved : servedBy cfg s (requestOn sidRequestDownload payload h) with
  | none => simp
  | some served =>
    have hone (P : Service W × Sys W → Prop) : (∀ x ∈ some served, P x) ↔ P served := by simp
    rw [hone, handlers_mirror_iff hsame served.2 h]
    exact ⟨fun hformat _ => hformat, fun hformat => hformat rfl⟩

end Requests

theorem plain_same : SameCallbacks plainConfig := ⟨rfl, nofun⟩

theorem plain_surroundings (h : payload.length < 65535) : SameSurroundings plainConfig payload h :=
  ⟨nofun, nofun, fun _ _ _ => le_refl 0⟩

/-- One byte at address 0: without callbacks both are answered with NRC 0x22. -/
theorem oneByte_mirrors :
    UploadMirrors plainConfig (booted plainConfig) [0x00, 0x11, 0x00, 0x01] (by decide) ∧
      RequestsMirror plainConfig (booted plainConfig) [0x00, 0x11, 0x00, 0x01] (by decide) := by
  obtain ⟨hhandlers, hrequests⟩ := upload_mirrors_iff plainConfig plain_same (booted plainConfig)
    [0x00, 0x11, 0x00, 0x01] (by decide)
  constructor
  · exact hhandlers.mpr fun _ _ => by decide
  · exact (hrequests (plain_surroundings _)).mpr fun _ _ _ => by decide

/-- The format byte 00 announces fields of no bytes. -/
def noFields : List UInt8 := [0x00, 0x00, 0x00]

/-- The messages that answer a request with this payload. -/
def answersTo (sid : UInt8) : List (List UInt8) :=
  sentOf (step plainConfig (booted plainConfig)
    (.inputSdu (.bytes (requestOn sid noFields (by decide))))).2

theorem noFields_not_mirrored : SameCallbacks plainConfig ∧
    ¬ UploadMirrors plainConfig (booted plainConfig) noFields (by decide) ∧
    ¬ RequestsMirror plainConfig (booted plainConfig) noFields (by decide) ∧
      answersTo sidRequestDownload = [[0x7F, 0x34, 0x31]] ∧
      answersTo sidRequestUpload = [[0x7F, 0x35, 0x13]] := by
  have hdown : sentOf ((handleRequestDownload plainConfig
      (requestOn sidRequestDownload noFields (by decide))).outputs (booted plainConfig)) =
        [[0x7F, 0x34, 0x31]] := by decide
  have hup : sentOf ((handleRequestUpload plainConfig
      (requestOn sidRequestUpload noFields (by decide))).outputs (booted plainConfig)) =
        [[0x7F, 0x35, 0x13]] := by decide
  have hdown' : answersTo sidRequestDownload = [[0x7F, 0x34, 0x31]] := by decide
  have hup' : answersTo sidRequestUpload = [[0x7F, 0x35, 0x13]] := by decide
  refine ⟨plain_same, fun h => ?_, fun h => ?_, hdown', hup'⟩
  · have hsent := h.sent
    rw [hdown, hup] at hsent
    exact absurd hsent (by decide)
  · have hsent : (answersTo sidRequestDownload).map mirrored = answersTo sidRequestUpload := h.sent
    rw [hdown', hup'] at hsent
    exact absurd hsent (by decide)

end UdsLib.Core
