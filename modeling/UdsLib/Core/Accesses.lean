import UdsLib.Core.MemoryAccess

/-! The accesses to the memory of the application. In a stack that answers on the spot the calls of
`fn_mem_read` and `fn_mem_write` in a whole run are the ranges of the messages that ask for one. -/
namespace UdsLib.Core
open Bytes Machine Prog Services

variable {W : Type} {cfg : Config W} {d : Sdu} {s u : Sys W} {es : List Event} {op : Op W}
  {range : UInt32 × UInt32}

/-- The range of a call of `fn_mem_read` or `fn_mem_write`. -/
def Event.access? : Event → Option (UInt32 × UInt32)
  | .call (.memRead addr size _) _ => some (addr, size)
  | .call (.memWrite addr size _) _ => some (addr, size)
  | _ => none

def accessesOf (es : List Event) : List (UInt32 × UInt32) := es.filterMap Event.access?

theorem accessesOf_append (es fs : List Event) :
    accessesOf (es ++ fs) = accessesOf es ++ accessesOf fs :=
  List.filterMap_append ..

/-- A request for one of the two memory services that is long enough for its handler. -/
def RequestsMemory (d : Sdu) : Prop :=
  (d.byte 0 = sidReadMemByAddr ∨ d.byte 0 = sidWriteMemByAddr) ∧ 3 ≤ d.bytes.length

instance (d : Sdu) : Decidable (RequestsMemory d) := inferInstanceAs (Decidable (_ ∧ _))

/-- The range that a request asks the application for. -/
def accessFor (cfg : Config W) (d : Sdu) : Option (UInt32 × UInt32) :=
  if RequestsMemory d then
    match planOf cfg d with
    | .ask addr size => some (addr, size)
    | .deny _ => none
  else none

/-- The same for a message. -/
def accessOf? (cfg : Config W) (message : List UInt8) : Option (UInt32 × UInt32) :=
  if h : message.length < 65536 then accessFor cfg ⟨message, h⟩ else none

/-- The ranges that the messages of the calls ask for. -/
def accessesIn (cfg : Config W) (ops : List (Op W)) : List (UInt32 × UInt32) :=
  ((messagesIn ops).map Buf.content).filterMap (accessOf? cfg)

theorem accessesIn_cons (cfg : Config W) (op : Op W) (ops : List (Op W)) :
    accessesIn cfg (op :: ops) = accessesIn cfg [op] ++ accessesIn cfg ops := by
  unfold accessesIn
  rw [messagesIn_cons op ops, List.map_append, List.filterMap_append]

theorem accessOf_bytes (cfg : Config W) (d : Sdu) : accessOf? cfg d.bytes = accessFor cfg d :=
  dif_pos d.length_lt

/-! ### A handler -/

theorem told_of_access {e : Event} (h : e.access? = some range) : e.told? = some range := by
  cases e with
  | call c ret =>
    cases c with
    | memRead | memWrite => exact h
    | _ => cases h
  | _ => cases h

theorem untold_access {e : Event} (h : e.told? = none) : e.access? = none := by
  cases haccess : e.access? with
  | none => rfl
  | some range =>
    rw [told_of_access haccess] at h
    cases h

theorem outside_accesses {t : Sys W} (h : Outside cfg d s es t) : accessesOf es = [] :=
  List.filterMap_eq_nil_iff.mpr fun e he => untold_access (h.events e he).told

/-- Of the handlers that are told a range, those of the memory services alone ask for it. -/
theorem OfHandler.access {sid : UInt8} {e : Event} (h : OfHandler cfg d sid e)
    (haccess : e.access? = some range) : sid = sidReadMemByAddr ∨ sid = sidWriteMemByAddr := by
  cases e with
  | call c ret =>
    have hservice := Allowed.service h
    have hnamed (named : UInt8) (h : some named = some sid ∨ false = true) : sid = named := by
      rcases h with h | h
      · exact (Option.some.inj h).symm
      · exact absurd h Bool.false_ne_true
    cases c with
    | memRead addr size room => exact .inl (hnamed _ hservice)
    | memWrite addr size data => exact .inr (hnamed _ hservice)
    | _ => cases haccess
  | _ => cases haccess

theorem OfHandler.told_access {sid : UInt8} {e : Event} (h : OfHandler cfg d sid e)
    (hsid : sid = sidReadMemByAddr ∨ sid = sidWriteMemByAddr) : e.access? = e.told? := by
  cases e with
  | call c ret =>
    have hservice := Allowed.service h
    have hother (named : UInt8) (hread : named ≠ sidReadMemByAddr) (hwrite : named ≠ sidWriteMemByAddr)
        (h : some named = some sid ∨ false = true) : False := by
      rcases h with h | h
      · obtain rfl := Option.some.inj h
        exact hsid.elim hread hwrite
      · exact Bool.false_ne_true h
    cases c with
    | requestDownload addr size => exact (hother _ (by decide) (by decide) hservice).elim
    | requestUpload addr size => exact (hother _ (by decide) (by decide) hservice).elim
    | _ => rfl
  | _ => rfl

/-! ### A call -/

/-- An access is made for a request of one of the memory services. -/
theorem step_access {e : Event} (he : e ∈ (step cfg s op).2) (haccess : e.access? = some range) :
    ∃ d, op = .inputSdu (.bytes d) ∧ RequestsMemory d := by
  have hnot {fs : List Event} (hfs : accessesOf fs = []) (he : e ∈ fs) : False := by
    rw [List.filterMap_eq_nil_iff.mp hfs e he] at haccess
    cases haccess
  cases step_footprint cfg s op with
  | outside hout => exact (hnot (outside_accesses hout) he).elim
  | process _ _ hevents =>
    exact (hnot (List.filterMap_eq_nil_iff.mpr fun e he => untold_access (hevents e he).told) he).elim
  | handler d service pre mid post u v hop hruns hes hpre hpost =>
    rw [hes, List.mem_append, List.mem_append] at he
    rcases he with he | he | he
    · exact (hnot (outside_accesses hpre) he).elim
    · have hsid := (hruns.work.events e he).access haccess
      rw [hruns.sid] at hsid
      have hlen : service.minLen.toNat = 3 := by
        rcases hsid with hsid | hsid
        · obtain rfl := Option.some.inj (hruns.found (hruns.sid.trans hsid))
          rfl
        · obtain rfl := Option.some.inj (hruns.found (hruns.sid.trans hsid))
          rfl
      exact ⟨d, hop, hsid, hlen ▸ hruns.length⟩
    · exact (hnot (outside_accesses hpost) he).elim

theorem request_accesses (hsync : Synchronous cfg) (hungated : cfg.isSet .fnIsSafe = false)
    (hs : Attends s.ctx) (hreq : RequestsMemory d) :
    accessesOf (step cfg s (.inputSdu (.bytes d))).2 = (accessFor cfg d).toList := by
  obtain ⟨hsid, hlen⟩ := hreq
  have hnames : NamesRange (d.byte 0) := hsid.elim .inl fun h => .inr (.inl h)
  have hgate : GatePasses cfg s d := gate_passes hungated s d
  have hown : ∀ entry ∈ cfg.userServices, entry.sid ≠ d.byte 0 := by
    rw [hsync.services]
    exact nofun
  have hfound : ∃ service ∈ coreServices cfg, service.sid = d.byte 0 ∧ service.subMask = none ∧
      service.minLen.toNat ≤ d.bytes.length := by
    rcases hsid with h | h
    · refine ⟨coreService sidReadMemByAddr 3 (handleReadMemoryByAddr cfg) none, ?_, h.symm, rfl, hlen⟩
      simp [coreServices]
    · refine ⟨coreService sidWriteMemByAddr 3 (handleWriteMemoryByAddr cfg) none, ?_, h.symm, rfl, hlen⟩
      simp [coreServices]
  obtain ⟨service, hcore, hsame, hsub, hmin⟩ := hfound
  have hne : d.bytes ≠ [] := List.ne_nil_of_length_pos (by omega)
  have hserved := served_plain hcore hsame hsub hmin hne hs.idle hs.known hown hgate
  obtain ⟨pre, post, hes, hpre, -, hpost, -⟩ := step_served hserved
  have hruns := servedBy_runs hserved
  have htold := (served_planned hserved hnames).told
  have hpassed : d.byte 0 = sidWriteMemByAddr →
      (pure true : M W Bool).value (behindGate cfg s d) = true := fun _ => rfl
  rw [gate_open hungated, if_pos hpassed] at htold
  have haccesses : accessesOf ((service.handler d).outputs (behindGate cfg s d)) =
      toldOf ((service.handler d).outputs (behindGate cfg s d)) := by
    apply List.filterMap_congr
    intro e he
    exact (hruns.work.events e he).told_access (hsame ▸ hsid)
  rw [hes, accessesOf_append, accessesOf_append, outside_accesses hpre, outside_accesses hpost,
    List.nil_append, List.append_nil, haccesses, htold]
  unfold accessFor
  rw [if_pos ⟨hsid, hlen⟩]
  cases planOf cfg d with
  | ask addr size => rfl
  | deny nrc => rfl

/-- The application's memory is accessed for the messages that ask for a range, and nothing else. -/
theorem step_accesses (hsync : Synchronous cfg) (hungated : cfg.isSet .fnIsSafe = false)
    (hs : Attends s.ctx) (op : Op W) : accessesOf (step cfg s op).2 = accessesIn cfg [op] := by
  have hnone (h : ∀ d, op = .inputSdu (.bytes d) → ¬ RequestsMemory d) :
      accessesOf (step cfg s op).2 = [] := by
    apply List.filterMap_eq_nil_iff.mpr
    intro e he
    cases haccess : e.access? with
    | none => rfl
    | some range =>
      obtain ⟨d, hop, hreq⟩ := step_access he haccess
      exact absurd hreq (h d hop)
  cases op with
  | inputSdu data =>
    cases data with
    | null len => exact hnone nofun
    | bytes d =>
      have hin : accessesIn cfg [.inputSdu (.bytes d)] = (accessFor cfg d).toList := by
        show [d.bytes].filterMap (accessOf? cfg) = _
        rw [← accessOf_bytes, List.filterMap_cons, List.filterMap_nil]
        cases accessOf? cfg d.bytes <;> rfl
      by_cases hreq : RequestsMemory d
      · rw [hin, request_accesses hsync hungated hs hreq]
      · have hplain : ∀ d', Op.inputSdu (W := W) (.bytes d) = .inputSdu (.bytes d') →
            ¬ RequestsMemory d' := by
          rintro d' ⟨⟩
          exact hreq
        rw [hin, hnone hplain, accessFor, if_neg hreq]
        rfl
  | process | clientRequest | fill | sendResponse | sendNrc | elapse => exact hnone nofun

theorem run_accesses (hsync : Synchronous cfg) (hungated : cfg.isSet .fnIsSafe = false)
    (hs : Attends s.ctx) {ops : List (Op W)} (hops : ∀ op ∈ ops, op.Serves) :
    accessesOf (trace (step cfg) s ops) = accessesIn cfg ops := by
  induction ops generalizing s with
  | nil => rfl
  | cons op ops ih =>
    obtain ⟨hop, hops⟩ := List.forall_mem_cons.mp hops
    have hnext : Attends (exec (step cfg) s [op]).ctx :=
      hs.run hsync (List.forall_mem_singleton.mpr hop)
    rw [trace_cons, accessesOf_append, step_accesses hsync hungated hs, accessesIn_cons cfg op ops]
    exact congrArg (accessesIn cfg [op] ++ ·) (ih hnext hops)

end UdsLib.Core
