import UdsLib.Core.Answers
import UdsLib.Services.Ranges

/-! The address ranges that the application is told. The stack hands on the address and the size of a
request as they come: no handler looks at their sum. -/
namespace UdsLib.Core
open Bytes Machine Prog Services

variable {W : Type} {cfg : Config W} {d : Sdu} {s t u : Sys W} {es : List Event} {op : Op W}

/-- The address and the size that a callback is told. -/
def Call.range? : Call → Option (UInt32 × UInt32)
  | .memRead addr size _ => some (addr, size)
  | .memWrite addr size _ => some (addr, size)
  | .requestDownload addr size => some (addr, size)
  | .requestUpload addr size => some (addr, size)
  | _ => none

/-- The range ends in the 32-bit address space. -/
def InSpace (range : UInt32 × UInt32) : Prop := range.1.toNat + range.2.toNat ≤ 2 ^ 32

instance (range : UInt32 × UInt32) : Decidable (InSpace range) :=
  inferInstanceAs (Decidable (_ ≤ _))

/-- The services that are told an address range. -/
def NamesRange (sid : UInt8) : Prop :=
  sid = sidReadMemByAddr ∨ sid = sidWriteMemByAddr ∨ sid = sidRequestDownload ∨
    sid = sidRequestUpload

/-- The range that a request names. -/
def rangeOf (d : Sdu) : Option (UInt32 × UInt32) :=
  if d.byte 0 = sidReadMemByAddr ∨ d.byte 0 = sidWriteMemByAddr then fieldsAt d 2 (d.byte 1)
  else if d.byte 0 = sidRequestDownload ∨ d.byte 0 = sidRequestUpload then fieldsAt d 3 (d.byte 2)
  else none

/-- What the handler of the request's service makes of the request. -/
def planOf (cfg : Config W) (d : Sdu) : Plan :=
  if d.byte 0 = sidReadMemByAddr then planReadMemory cfg d
  else if d.byte 0 = sidWriteMemByAddr then planWriteMemory cfg d
  else if d.byte 0 = sidRequestDownload then planRequestDownload cfg d
  else planRequestUpload cfg d

/-- The request reaches its handler, which asks the application. A request to write memory has to
pass the safety gate a second time. -/
def AsksApp (cfg : Config W) (s : Sys W) (d : Sdu) : Prop :=
  ∃ served ∈ servedBy cfg s d, (∀ nrc, planOf cfg d ≠ .deny nrc) ∧
    (d.byte 0 = sidWriteMemByAddr → (safetyGate cfg sidWriteMemByAddr d).value served.2 = true)

/-- The application is told no range that leaves the address space, and a request that names one is
answered with a negative response. -/
structure RangesKept (cfg : Config W) (s : Sys W) (op : Op W) : Prop where
  told : ∀ call ret, .call call ret ∈ (step cfg s op).2 → ∀ range ∈ call.range?, InSpace range
  refused : ∀ d, op = .inputSdu (.bytes d) → ∀ range ∈ rangeOf d, ¬ InSpace range →
    Declined (d.byte 0) (step cfg s op).2

/-- The condition: a request that names such a range is refused before the application is asked, and
there is room for the answer. -/
def WrapRefused (cfg : Config W) (s : Sys W) : Op W → Prop
  | .inputSdu (.bytes d) => ∀ range ∈ rangeOf d, ¬ InSpace range →
      3 ≤ cfg.txBufferSize ∧ ¬ AsksApp cfg s d
  | _ => True

/-! ### What the handlers ask -/

theorem NamesRange.isRequest (s : Sys W) (h : NamesRange (d.byte 0)) : IsRequest s d := by
  rcases h with h | h | h | h
  all_goals
    apply isRequest_of_bit s
    all_goals
      rw [h]
      decide

theorem namesRange_of_range {range : UInt32 × UInt32} (h : rangeOf d = some range) :
    NamesRange (d.byte 0) := by
  unfold rangeOf at h
  unfold NamesRange
  split_ifs at h with hmem hflash
  · rcases hmem with hsid | hsid
    · exact .inl hsid
    · exact .inr (.inl hsid)
  · exact .inr (.inr hflash)

/-- The range that a handler asks for is the one that the request names. -/
theorem planOf_asks {addr size : UInt32} (hsid : NamesRange (d.byte 0))
    (h : planOf cfg d = .ask addr size) : rangeOf d = some (addr, size) := by
  have hopening {callback : Callback} {nrc : UInt8} (h : planOpening cfg d callback nrc = .ask addr size) :
      fieldsAt d 3 (d.byte 2) = some (addr, size) := by
    unfold planOpening at h
    grind
  unfold planOf at h
  unfold rangeOf
  rcases hsid with hsid | hsid | hsid | hsid
  · rw [if_pos hsid] at h
    rw [if_pos (.inl hsid)]
    unfold planReadMemory at h
    grind
  · rw [if_neg (by rw [hsid]; decide), if_pos hsid] at h
    rw [if_pos (.inr hsid)]
    unfold planWriteMemory at h
    grind
  · rw [if_neg (by rw [hsid]; decide), if_neg (by rw [hsid]; decide), if_pos hsid] at h
    rw [if_neg (by rw [hsid]; decide), if_pos (.inl hsid)]
    exact hopening h
  · rw [if_neg (by rw [hsid]; decide), if_neg (by rw [hsid]; decide), if_neg (by rw [hsid]; decide)] at h
    rw [if_neg (by rw [hsid]; decide), if_pos (.inr hsid)]
    exact hopening h

/-- The range that an event tells the application. -/
def Event.told? : Event → Option (UInt32 × UInt32)
  | .call c _ => c.range?
  | _ => none

def toldOf (es : List Event) : List (UInt32 × UInt32) := es.filterMap Event.told?

theorem toldOf_append (es fs : List Event) : toldOf (es ++ fs) = toldOf es ++ toldOf fs :=
  List.filterMap_append ..

theorem toldOf_none (h : ∀ e ∈ es, e.told? = none) : toldOf es = [] :=
  List.filterMap_eq_nil_iff.mpr h

theorem mem_toldOf {range : UInt32 × UInt32} :
    range ∈ toldOf es ↔ ∃ call ret, .call call ret ∈ es ∧ call.range? = some range := by
  constructor
  · intro h
    obtain ⟨e, he, hrange⟩ := List.mem_filterMap.mp h
    cases e with
    | call call ret => exact ⟨call, ret, he, hrange⟩
    | _ => cases hrange
  · rintro ⟨call, ret, he, hrange⟩
    exact List.mem_filterMap.mpr ⟨_, he, hrange⟩

section Handlers

variable {α : Type} {sid : UInt8}

/-- Wherever it starts, the program tells the application no range. -/
abbrev TellsNone (m : M W α) : Prop := Keeps (fun _ es _ => toldOf es = []) m

theorem tellsNone_composable :
    Composable (fun (_ : Sys W) (es : List Event) (_ : Sys W) => toldOf es = []) where
  refl _ := rfl
  trans h hnext := by rw [toldOf_append, h, hnext, List.append_nil]

theorem faults_tell (h : ∀ e ∈ es, ∃ f, e = .fault f) : toldOf es = [] :=
  toldOf_none (faults_forall h fun _ => rfl)

theorem sendNrc_tells (sid nrc : UInt8) : TellsNone (sendNrc cfg sid nrc) := by
  intro s
  apply toldOf_none
  intro e he
  rcases sendNrc_event he with ⟨f, rfl⟩ | ⟨-, ret, rfl⟩
  · rfl
  · rfl

theorem sendResponse_tells (len : UInt16) : TellsNone (sendResponse cfg len) := by
  apply sendResponse_keeps
  · exact fun _ => rfl
  · exact fun _ => rfl
  · exact fun _ _ _ => rfl

theorem respond_tells (off : ℕ) (bs : List UInt8) (len : UInt16) :
    TellsNone (writeTx cfg off bs >>= fun _ => sendResponse cfg len) :=
  tellsNone_composable.bind (fun s => faults_tell fun _ => writeTx_faults s) fun _ =>
    sendResponse_tells len

/-- What follows a call does not count. -/
theorem told_call {call : Call} {f : Reply → M W α} (hf : ∀ reply, TellsNone (f reply)) (s : Sys W) :
    toldOf ((invoke cfg call >>= f).outputs s) = call.range?.toList := by
  have hcall : toldOf ((invoke cfg call).outputs s) = call.range?.toList := by
    cases call <;> rfl
  rw [outputs_bind, toldOf_append, hf, List.append_nil]
  exact hcall

theorem readRange_tells (addr size : UInt32) (s : Sys W) :
    toldOf ((readRange cfg addr size).outputs s) = [(addr, size)] := by
  have hR := tellsNone_composable (W := W)
  unfold readRange invokeOut
  rw [then_then, told_call]
  · rfl
  · intro reply
    apply hR.bind
    · exact hR.bind (fun s => faults_tell fun _ => writeTx_faults s) fun _ => hR.refl
    · exact fun _ => Keeps.ite (fun _ => sendNrc_tells _ _) fun _ => respond_tells _ _ _

theorem openRange_tells (sid : UInt8) (call : Call) (s : Sys W) :
    toldOf ((openRange cfg sid call).outputs s) = call.range?.toList := by
  have hR := tellsNone_composable (W := W)
  apply told_call
  intro reply
  apply Keeps.ite fun _ => sendNrc_tells _ _
  exact fun _ => hR.bind (fun _ => rfl) fun _ => respond_tells _ _ _

theorem safetyGate_tells (sid : UInt8) (s : Sys W) :
    toldOf ((safetyGate cfg sid d).outputs s) = [] := by
  unfold safetyGate
  rw [outputs_ite]
  split_ifs
  · rfl
  · rfl

theorem writeRange_tells (addr size : UInt32) (s : Sys W) :
    toldOf ((writeRange cfg d addr size).outputs s) =
      if (safetyGate cfg sidWriteMemByAddr d).value s = true then [(addr, size)] else [] := by
  have hR := tellsNone_composable (W := W)
  unfold writeRange
  extract_lets format addrLen sizeLen consumed
  rw [outputs_bind, toldOf_append, safetyGate_tells, List.nil_append, outputs_ite]
  by_cases hgate : (safetyGate cfg sidWriteMemByAddr d).value s = true
  · rw [if_neg (not_not_intro hgate), if_pos hgate, told_call]
    · rfl
    intro reply
    apply Keeps.ite fun _ => sendNrc_tells _ _
    intro _
    apply hR.bind fun s => faults_tell fun _ => bytesAt_faults s
    intro _
    apply hR.bind fun s => faults_tell fun _ => writeTx_faults s
    exact fun _ => respond_tells _ _ _
  · rw [if_pos hgate, if_neg hgate]
    exact sendNrc_tells _ _ _

end Handlers

/-! ### Requests -/

/-- What the handler of a service that is told a range does with a request. -/
structure Planned (cfg : Config W) (d : Sdu) (u : Sys W) (es : List Event) : Prop where
  told : toldOf es =
    if d.byte 0 = sidWriteMemByAddr → (safetyGate cfg sidWriteMemByAddr d).value u = true then
      match planOf cfg d with
      | .ask addr size => [(addr, size)]
      | .deny _ => []
    else []
  declined : 3 ≤ cfg.txBufferSize → toldOf es = [] → Declined (d.byte 0) es
  asked : ∀ data ret, .tpSend .response data ret ∈ es → ∃ addr size, planOf cfg d = .ask addr size

theorem follow_planned {ask : UInt32 → UInt32 → M W ℤ}
    (htold : ∀ addr size, toldOf ((ask addr size).outputs u) =
      if d.byte 0 = sidWriteMemByAddr → (safetyGate cfg sidWriteMemByAddr d).value u = true then
        [(addr, size)]
      else [])
    (hdeclined : ∀ addr size, 3 ≤ cfg.txBufferSize → toldOf ((ask addr size).outputs u) = [] →
      Declined (d.byte 0) ((ask addr size).outputs u)) :
    Planned cfg d u ((follow cfg (d.byte 0) ask (planOf cfg d)).outputs u) := by
  constructor
  · cases planOf cfg d with
    | deny nrc => exact (sendNrc_tells _ _ u).trans (ite_self _).symm
    | ask addr size => exact htold addr size
  · cases planOf cfg d with
    | deny nrc => exact fun htx _ => refuses_nrc htx nrc u
    | ask addr size => exact hdeclined addr size
  · intro data ret he
    cases hplan : planOf cfg d with
    | deny nrc =>
      rw [hplan] at he
      exact absurd he (sendNrc_no_response data ret)
    | ask addr size => exact ⟨addr, size, rfl⟩

theorem writeRange_declines {addr size : UInt32} (htx : 3 ≤ cfg.txBufferSize)
    (h : toldOf ((writeRange cfg d addr size).outputs u) = []) :
    Declined sidWriteMemByAddr ((writeRange cfg d addr size).outputs u) := by
  rw [writeRange_tells] at h
  split_ifs at h with hgate
  have hlook : Composed (Look cfg True True) (safetyGate cfg sidWriteMemByAddr d) := Look.safetyGate _ _
  unfold writeRange
  extract_lets format addrLen sizeLen consumed
  rw [outputs_bind, outputs_ite, if_pos hgate]
  apply (refuses_nrc htx _ _).after
  intro data ret he
  exact absurd ((Look.composed hlook u).events _ he) Bool.false_ne_true

theorem served_planned {service : Service W} (hserved : servedBy cfg s d = some (service, u))
    (hsid : NamesRange (d.byte 0)) : Planned cfg d u ((service.handler d).outputs u) := by
  have hruns := servedBy_runs hserved
  have hother (hne : d.byte 0 ≠ sidWriteMemByAddr) (range : List (UInt32 × UInt32)) :
      range = if d.byte 0 = sidWriteMemByAddr →
        (safetyGate cfg sidWriteMemByAddr d).value u = true then range else [] :=
    (if_pos fun h => absurd h hne).symm
  rcases hsid with hsid | hsid | hsid | hsid
  · obtain rfl := Option.some.inj (hruns.found (hruns.sid.trans hsid))
    have hplan : planReadMemory cfg d = planOf cfg d := (if_pos hsid).symm
    have hnot : d.byte 0 ≠ sidWriteMemByAddr := by rw [hsid]; decide
    change Planned cfg d u ((handleReadMemoryByAddr cfg d).outputs u)
    rw [readMemory_follows, hplan, ← hsid]
    apply follow_planned
    · exact fun addr size => (readRange_tells addr size u).trans (hother hnot _)
    · intro addr size _ hnone
      rw [readRange_tells] at hnone
      cases hnone
  · obtain rfl := Option.some.inj (hruns.found (hruns.sid.trans hsid))
    have hplan : planWriteMemory cfg d = planOf cfg d := by
      unfold planOf
      rw [if_neg (by rw [hsid]; decide), if_pos hsid]
    change Planned cfg d u ((handleWriteMemoryByAddr cfg d).outputs u)
    rw [writeMemory_follows, hplan, ← hsid]
    apply follow_planned
    · intro addr size
      rw [writeRange_tells]
      simp only [hsid, forall_const]
    · intro addr size htx hnone
      rw [hsid]
      exact writeRange_declines htx hnone
  · obtain rfl := Option.some.inj (hruns.found (hruns.sid.trans hsid))
    have hplan : planRequestDownload cfg d = planOf cfg d := by
      unfold planOf
      rw [if_neg (by rw [hsid]; decide), if_neg (by rw [hsid]; decide), if_pos hsid]
    have hnot : d.byte 0 ≠ sidWriteMemByAddr := by rw [hsid]; decide
    change Planned cfg d u ((handleRequestDownload cfg d).outputs u)
    rw [requestDownload_follows, hplan, ← hsid]
    apply follow_planned
    · exact fun addr size => (openRange_tells _ _ u).trans (hother hnot _)
    · intro addr size _ hnone
      rw [openRange_tells] at hnone
      cases hnone
  · obtain rfl := Option.some.inj (hruns.found (hruns.sid.trans hsid))
    have hplan : planRequestUpload cfg d = planOf cfg d := by
      unfold planOf
      rw [if_neg (by rw [hsid]; decide), if_neg (by rw [hsid]; decide),
        if_neg (by rw [hsid]; decide)]
    have hnot : d.byte 0 ≠ sidWriteMemByAddr := by rw [hsid]; decide
    change Planned cfg d u ((handleRequestUpload cfg d).outputs u)
    rw [requestUpload_follows, hplan, ← hsid]
    apply follow_planned
    · exact fun addr size => (openRange_tells _ _ u).trans (hother hnot _)
    · intro addr size _ hnone
      rw [openRange_tells] at hnone
      cases hnone

/-! ### A call -/

theorem Surround.told {e : Event} (he : Surround cfg d e) : e.told? = none := by
  cases e with
  | call c ret =>
    rcases he.2 with hlock | ⟨level, msg, rfl⟩ | ⟨sid, rfl⟩
    · cases c with
      | mutexLock => rfl
      | mutexUnlock => rfl
      | _ => exact absurd hlock Bool.false_ne_true
    · rfl
    · rfl
  | _ => rfl

theorem Outside.told (h : Outside cfg d s es t) : toldOf es = [] :=
  toldOf_none fun e he => (h.events e he).told

theorem OfHandler.told {sid : UInt8} {e : Event} (hsid : ¬ NamesRange sid)
    (h : OfHandler cfg d sid e) : e.told? = none := by
  cases e with
  | call c ret =>
    have hservice := Allowed.service h
    have hother (named : UInt8) (hnamed : NamesRange named)
        (h : some named = some sid ∨ false = true) : False := by
      rcases h with h | h
      · exact hsid (Option.some.inj h ▸ hnamed)
      · exact Bool.false_ne_true h
    cases c with
    | memRead addr size room => exact (hother _ (.inl rfl) hservice).elim
    | memWrite addr size data => exact (hother _ (.inr (.inl rfl)) hservice).elim
    | requestDownload addr size => exact (hother _ (.inr (.inr (.inl rfl))) hservice).elim
    | requestUpload addr size => exact (hother _ (.inr (.inr (.inr rfl))) hservice).elim
    | _ => rfl
  | _ => rfl

theorem OfProcess.told {e : Event} (h : OfProcess cfg s e) : e.told? = none := by
  rcases h with hsurround | ⟨-, hperiodic⟩
  · exact hsurround.told
  · cases e with
    | call c ret =>
      cases c with
      | periodicRead id len => rfl
      | _ => exact absurd hperiodic Bool.false_ne_true
    | _ => rfl

/-- A range that is told is the one of the request, whose handler asks. -/
theorem step_told {range : UInt32 × UInt32} (h : range ∈ toldOf (step cfg s op).2) :
    ∃ d, op = .inputSdu (.bytes d) ∧ rangeOf d = some range ∧ AsksApp cfg s d := by
  have hnone {fs : List Event} (hfs : toldOf fs = []) (h : range ∈ toldOf fs) : False := by
    rw [hfs] at h
    cases h
  cases step_footprint cfg s op with
  | outside hout => exact (hnone hout.told h).elim
  | process _ _ hevents => exact (hnone (toldOf_none fun e he => (hevents e he).told) h).elim
  | handler d service pre mid post u v hop hruns hes hpre hpost =>
    rw [hes, toldOf_append, toldOf_append, hpre.told, hpost.told, List.nil_append,
      List.append_nil] at h
    by_cases hsid : NamesRange (d.byte 0)
    · have hplanned := served_planned hruns.servedBy hsid
      rw [hruns.outputs, hplanned.told] at h
      split_ifs at h with hgate
      · cases hplan : planOf cfg d with
        | deny nrc =>
          rw [hplan] at h
          cases h
        | ask addr size =>
          rw [hplan] at h
          obtain rfl := List.mem_singleton.mp h
          refine ⟨d, hop, planOf_asks hsid hplan, (service, u), hruns.servedBy, ?_, hgate⟩
          intro nrc
          rw [hplan]
          exact nofun
      · cases h
    · rw [← hruns.sid] at hsid
      exact (hnone (toldOf_none fun e he => (hruns.work.events e he).told hsid) h).elim

/-- A request whose handler asks has its range told. -/
theorem asks_told (hsid : NamesRange (d.byte 0)) (h : AsksApp cfg s d) :
    ∃ range, rangeOf d = some range ∧ range ∈ toldOf (step cfg s (.inputSdu (.bytes d))).2 := by
  obtain ⟨⟨service, u⟩, hserved, hplan, hgate⟩ := h
  have hserved' : servedBy cfg s d = some (service, u) := hserved
  obtain ⟨pre, post, hes, hpre, -, hpost, -⟩ := step_served hserved'
  have hplanned := served_planned hserved' hsid
  have htold := hplanned.told
  rw [if_pos hgate] at htold
  cases hask : planOf cfg d with
  | deny nrc => exact absurd hask (hplan nrc)
  | ask addr size =>
    rw [hask] at htold
    refine ⟨(addr, size), planOf_asks hsid hask, ?_⟩
    rw [hes, toldOf_append, toldOf_append, hpre.told, hpost.told, htold]
    exact List.mem_singleton.mpr rfl

/-- A request whose handler does not ask is declined. -/
theorem unasked_declined (hsid : NamesRange (d.byte 0)) (htx : 3 ≤ cfg.txBufferSize)
    (hown : ∀ entry ∈ cfg.userServices, entry.sid ≠ d.byte 0) (h : ¬ AsksApp cfg s d) :
    Declined (d.byte 0) (step cfg s (.inputSdu (.bytes d))).2 := by
  have hreq := hsid.isRequest s
  cases href : refusalOf cfg s d with
  | some nrc => exact refused_declined hreq htx href
  | none =>
    obtain ⟨service, u, hserved⟩ := served_of_unrefused hreq hown href
    have hplanned := served_planned hserved hsid
    apply served_declined hserved
    apply hplanned.declined htx
    rw [hplanned.told]
    split_ifs with hgate
    · cases hplan : planOf cfg d with
      | deny nrc => rfl
      | ask addr size =>
        refine absurd ⟨(service, u), hserved, ?_, hgate⟩ h
        intro nrc
        rw [hplan]
        exact nofun
    · rfl

/-- The address ranges that the application is told stay in the address space exactly for the calls
whose request names no range beyond it, or is refused before the application is asked. -/
theorem address_ranges_iff (cfg : Config W) (s : Sys W) (op : Op W)
    (hown : ∀ entry ∈ cfg.userServices, ¬ NamesRange entry.sid) :
    RangesKept cfg s op ↔ WrapRefused cfg s op := by
  constructor
  · intro h
    cases op with
    | inputSdu data =>
      cases data with
      | null len => trivial
      | bytes d =>
        intro range hrange hout
        have hsid := namesRange_of_range hrange
        have hcore : ∀ entry ∈ cfg.userServices, entry.sid ≠ d.byte 0 :=
          fun entry hentry hsame => hown entry hentry (hsame ▸ hsid)
        obtain ⟨nrc, ret, hsent⟩ := (h.refused d rfl range hrange hout).negative
        refine ⟨request_nrc_room (hsid.isRequest s) hcore hsent rfl, fun hasks => ?_⟩
        obtain ⟨range', hsame, htold⟩ := asks_told hsid hasks
        obtain rfl := Option.some.inj (hrange.symm.trans hsame)
        obtain ⟨call, ret, hcall, htells⟩ := mem_toldOf.mp htold
        exact hout (h.told call ret hcall range htells)
    | _ => trivial
  · intro h
    constructor
    · intro call ret hcall range hrange
      obtain ⟨d, rfl, hnamed, hasks⟩ := step_told (mem_toldOf.mpr ⟨call, ret, hcall, hrange⟩)
      by_contra hout
      exact (h range hnamed hout).2 hasks
    · rintro d rfl range hrange hout
      have hsid := namesRange_of_range hrange
      obtain ⟨htx, hasks⟩ := h range hrange hout
      apply unasked_declined hsid htx _ hasks
      exact fun entry hentry hsame => hown entry hentry (hsame ▸ hsid)

/-- A memory of 1024 bytes, as the simulator of the repository has it: its callbacks compare the end
of the range in 32-bit arithmetic. -/
def memoryConfig : Config Unit :=
  { plainConfig with
    isSet := fun callback => callback = .fnMemRead || callback = .fnMemWrite
    app := fun _ call w =>
      match call with
      | .memRead addr size _ =>
        (if addr + size > 1024 then ⟨-0x31, []⟩ else ⟨0, List.replicate size.toNat 0⟩, w)
      | .memWrite addr size _ => (⟨if addr + size > 1024 then -0x31 else 0, []⟩, w)
      | _ => (⟨0, []⟩, w) }

/-- 16 bytes at address 0. -/
def readLow : Sdu := ⟨[0x23, 0x44, 0x00, 0x00, 0x00, 0x00, 0x00, 0x00, 0x00, 0x10], by decide⟩

theorem readLow_kept : RangesKept memoryConfig (booted memoryConfig) (.inputSdu (.bytes readLow)) := by
  apply (address_ranges_iff memoryConfig _ (.inputSdu (.bytes readLow)) nofun).mpr
  intro range hrange hout
  have hnamed : rangeOf readLow = some (0, 16) := by decide
  obtain rfl := Option.some.inj (hrange.symm.trans hnamed)
  exact absurd (by decide) hout

/-- 16 bytes at the last address. -/
def readLast : Sdu := ⟨[0x23, 0x44, 0xFF, 0xFF, 0xFF, 0xFF, 0x00, 0x00, 0x00, 0x10], by decide⟩

/-- The simulator's callback takes the range, and the request is answered positively. -/
theorem readLast_wraps :
    ¬ RangesKept memoryConfig (booted memoryConfig) (.inputSdu (.bytes readLast)) ∧
      sentOf (step memoryConfig (booted memoryConfig) (.inputSdu (.bytes readLast))).2 =
        [0x63 :: List.replicate 16 0] := by
  have hcall : .call (.memRead 0xFFFFFFFF 16 ⟨1, 16⟩) 0 ∈
      (step memoryConfig (booted memoryConfig) (.inputSdu (.bytes readLast))).2 := by decide
  refine ⟨fun h => ?_, by decide⟩
  exact absurd (h.told _ _ hcall _ rfl) (by decide)

end UdsLib.Core
