import UdsLib.Core.Pair

/-! Whether the stored session and security level are those in force. Both handlers that change
the pair hand it to `fn_nvm_save`; the S3 timer changes it without a word. -/
namespace UdsLib.Core
open Bytes Machine Prog

variable {W : Type} {cfg : Config W}

/-- The pair that was saved last. -/
def lastSaved (es : List Event) : Option (UInt8 × UInt8) := (savedOf es).getLast?

/-- If the call changes the pair, the new pair is what it saves last. -/
def SavesChange (cfg : Config W) (s : Sys W) (op : Op W) : Prop :=
  let r := step cfg s op
  r.1.ctx.pair ≠ s.ctx.pair → lastSaved r.2 = some r.1.ctx.pair

instance (cfg : Config W) (s : Sys W) (op : Op W) : Decidable (SavesChange cfg s op) :=
  inferInstanceAs (Decidable (_ → _))

/-- A memory with this content answers `fn_nvm_load`: with the two bytes of a pair, or, while
nothing was stored, with a length other than 2. -/
def Loads (cfg : Config W) (content : Option (UInt8 × UInt8)) : Prop :=
  cfg.isSet .fnNvmLoad = true ∧ ∀ c w, match content with
    | some p => (cfg.app c (.nvmLoad 2) w).1 = ⟨2, [p.1, p.2]⟩
    | none => (cfg.app c (.nvmLoad 2) w).1.ret ≠ 2

/-- The pair is the one saved last, or as it was before if nothing was saved. -/
def Mirrors (s : Sys W) (es : List Event) (t : Sys W) : Prop :=
  t.ctx.pair = (lastSaved es).getD s.ctx.pair

theorem lastSaved_append (es fs : List Event) :
    lastSaved (es ++ fs) = (lastSaved fs).or (lastSaved es) := by
  unfold lastSaved
  rw [savedOf_append, List.getLast?_append]

theorem mirrors_composable : Composable (Mirrors (W := W)) where
  refl _ := rfl
  trans {s es t fs u} h hnext := by
    unfold Mirrors at *
    rw [hnext, h, lastSaved_append]
    cases lastSaved fs <;> rfl

/-- A call saves the pair that it changes, unless the S3 timer runs out in it. -/
theorem savesChange_iff (hsave : cfg.isSet .fnNvmSave = true) (s : Sys W) (op : Op W) :
    SavesChange cfg s op ↔ ¬ TimesOut cfg s op := by
  unfold SavesChange lastSaved
  cases step_pair cfg s op with
  | kept hpair hsaved hkeys htime hsession => exact iff_of_true (absurd hpair) htime
  | timedOut htime hpair hsaved hkeys =>
    refine iff_of_false (fun h => ?_) (not_not_intro htime)
    have hchange : (step cfg s op).1.ctx.pair ≠ s.ctx.pair := by
      rw [hpair]
      intro hsame
      have hdefault : sessionIdDefault = s.ctx.activeSession := congrArg Prod.fst hsame
      cases op with
      | process => exact htime.1 hdefault.symm
      | _ => exact htime
    exact nomatch hsaved ▸ h hchange
  | session d hop hsid hpair hsaved hkeys =>
    subst hop
    refine iff_of_true (fun _ => ?_) id
    rw [hsaved, stored, if_pos hsave]
    rfl
  | key d level hop hsid hlevel hpair hsaved hkeys =>
    subst hop
    refine iff_of_true (fun _ => ?_) id
    rw [hsaved, stored, if_pos hsave]
    rfl

theorem step_mirrors (hsave : cfg.isSet .fnNvmSave = true) {s : Sys W} {op : Op W}
    (htime : ¬ TimesOut cfg s op) : Mirrors s (step cfg s op).2 (step cfg s op).1 := by
  unfold Mirrors lastSaved
  cases step_pair cfg s op with
  | kept hpair hsaved hkeys _ hsession =>
    rw [hsaved]
    exact hpair
  | timedOut h hpair hsaved hkeys => exact absurd h htime
  | session d hop hsid hpair hsaved hkeys =>
    rw [hsaved, stored, if_pos hsave]
    rfl
  | key d level hop hsid hlevel hpair hsaved hkeys =>
    rw [hsaved, stored, if_pos hsave]
    rfl

/-! ### Booting -/

theorem internalLog_ctx (level : UInt8) (msg : String) (s : Sys W) :
    ((internalLog cfg level msg).final s).ctx = s.ctx := by
  unfold internalLog
  rw [final_onlyIf]
  split_ifs <;> rfl

/-- The context when `uds_init` asks the memory. -/
def initCtx (cfg : Config W) : Ctx :=
  initTiming cfg { Ctx.zero with activeSession := sessionIdDefault }

/-- The state in which `uds_init` asks the memory. -/
def atLoad (cfg : Config W) (b : Sys W) : Sys W :=
  (internalLog cfg logInfo "UDS Stack Initialized").final
    ((onlyIf (cfg.strictCompliance = true)
      (internalLog cfg logInfo "Strict Compliance: Enforcing minimum P2/P2* durations")).final
        { b with ctx := initCtx cfg })

/-- What the memory answers to `uds_init`. -/
def nvmReply (cfg : Config W) (b : Sys W) : Reply := (invoke cfg (.nvmLoad 2)).value (atLoad cfg b)

/-- The memory answers with two bytes. -/
def Restored (cfg : Config W) (b : Sys W) : Prop :=
  cfg.isSet .fnNvmLoad = true ∧ (nvmReply cfg b).ret = 2

instance (cfg : Config W) (b : Sys W) : Decidable (Restored cfg b) :=
  inferInstanceAs (Decidable (_ ∧ _))

theorem atLoad_ctx (cfg : Config W) (b : Sys W) : (atLoad cfg b).ctx = initCtx cfg := by
  unfold atLoad
  rw [internalLog_ctx, final_onlyIf]
  split_ifs
  · exact internalLog_ctx _ _ _
  · rfl

/-- `uds_init` starts in the default session and locked, unless the memory answers with two
bytes. -/
theorem udsInit_parts (cfg : Config W) (b : Sys W) :
    ((udsInit cfg).final b).ctx = (if Restored cfg b then { initCtx cfg with
        activeSession := (nvmReply cfg b).out.getD 0 0
        securityLevel := (nvmReply cfg b).out.getD 1 0 }
      else initCtx cfg) ∧
    (cfg.isSet .fnNvmLoad = true →
      .call (.nvmLoad 2) (nvmReply cfg b).ret ∈ (udsInit cfg).outputs b) := by
  let zeroed : Sys W := { b with ctx := initCtx cfg }
  let strict := onlyIf (cfg.strictCompliance = true)
    (internalLog cfg logInfo "Strict Compliance: Enforcing minimum P2/P2* durations")
  let hello := internalLog cfg logInfo "UDS Stack Initialized"
  let load : M W Unit := onlyIf (cfg.isSet .fnNvmLoad) do
    let reply ← invoke cfg (.nvmLoad 2)
    onlyIf (reply.ret = 2) do
      setCtx fun c =>
        { c with activeSession := reply.out.getD 0 0, securityLevel := reply.out.getD 1 0 }
      internalLog cfg logInfo "NVM State Loaded"
  have hu := atLoad_ctx cfg b
  have hfinal : (udsInit cfg).final b = load.final (atLoad cfg b) := rfl
  have houtputs : (udsInit cfg).outputs b = strict.outputs zeroed ++
      (hello.outputs (strict.final zeroed) ++ (load.outputs (atLoad cfg b) ++ [])) := rfl
  obtain ⟨reply, hnvm⟩ : ∃ reply, nvmReply cfg b = reply := ⟨_, rfl⟩
  have hreply : (invoke cfg (.nvmLoad 2)).value (atLoad cfg b) = reply := hnvm
  rw [hfinal, houtputs, hnvm]
  by_cases hset : cfg.isSet .fnNvmLoad = true
  · have hload : load = _ := if_pos hset
    have hworld : ((invoke cfg (.nvmLoad 2)).final (atLoad cfg b)).ctx = initCtx cfg := hu
    rw [hload, final_bind, outputs_bind, final_onlyIf, hreply]
    constructor
    · by_cases hret : reply.ret = 2
      · rw [if_pos hret, if_pos ⟨hset, hnvm ▸ hret⟩, final_bind, internalLog_ctx]
        exact congrArg (fun c : Ctx => { c with
          activeSession := reply.out.getD 0 0, securityLevel := reply.out.getD 1 0 }) hworld
      · rw [if_neg hret, if_neg fun h : Restored cfg b => hret (hnvm ▸ h.2)]
        exact hworld
    · intro _
      have hcall : Event.call (.nvmLoad 2) reply.ret ∈
          (invoke cfg (.nvmLoad 2)).outputs (atLoad cfg b) :=
        hreply ▸ List.mem_singleton.mpr rfl
      simp [hcall]
  · have hload : load = pure () := if_neg hset
    rw [hload, if_neg fun h : Restored cfg b => hset h.1]
    exact ⟨hu, fun h => absurd h hset⟩

/-- `uds_init` restores what the memory holds. -/
theorem udsInit_pair {content : Option (UInt8 × UInt8)} (h : Loads cfg content) (b : Sys W) :
    ((udsInit cfg).final b).ctx.pair = content.getD (sessionIdDefault, 0) := by
  have hreply := h.2 (atLoad cfg b).ctx (atLoad cfg b).world
  rw [(udsInit_parts cfg b).1]
  cases content with
  | none =>
    rw [if_neg fun hrestored => hreply hrestored.2]
    rfl
  | some p =>
    have hvalue : nvmReply cfg b = ⟨2, [p.1, p.2]⟩ := hreply
    rw [hvalue, if_pos ⟨h.1, congrArg Reply.ret hvalue⟩]
    rfl

/-! ### Runs -/

/-- The stored pair is the one in force exactly as long as no S3 timer runs out. Along any run,
the calls that change the session or the level save the new pair if and only if the timer runs
out in none of them. After such a run a restart from the memory restores the pair in force. -/
theorem nvm_mirrors_iff (cfg : Config W) (hsave : cfg.isSet .fnNvmSave = true) (s : Sys W)
    (ops : List (Op W)) :
    (Along (step cfg) (SavesChange cfg) s ops ↔
        Along (step cfg) (fun t op => ¬ TimesOut cfg t op) s ops) ∧
      (Along (step cfg) (fun t op => ¬ TimesOut cfg t op) s ops →
        Mirrors s (trace (step cfg) s ops) (exec (step cfg) s ops) ∧
        ∀ (content : Option (UInt8 × UInt8)) (restart : Config W) (b : Sys W),
          content.getD (sessionIdDefault, 0) = s.ctx.pair →
          Loads restart ((lastSaved (trace (step cfg) s ops)).or content) →
          ((udsInit restart).final b).ctx.pair = (exec (step cfg) s ops).ctx.pair) := by
  constructor
  · constructor
    · exact Along.mono fun t op => (savesChange_iff hsave t op).mp
    · exact Along.mono fun t op => (savesChange_iff hsave t op).mpr
  · intro hrun
    have hmirror : Mirrors s (trace (step cfg) s ops) (exec (step cfg) s ops) :=
      run_keeps mirrors_composable (fun t op => step_mirrors hsave) hrun
    refine ⟨hmirror, fun content restart b hcontent hload => ?_⟩
    rw [udsInit_pair hload b, hmirror, ← hcontent]
    cases lastSaved (trace (step cfg) s ops) <;> rfl

/-- A memory for the pair. -/
def nvmConfig : Config UInt32 := { clockConfig with isSet := fun f => f = .fnNvmSave }

/-- The restart that finds the extended session in the memory. -/
def nvmRestart : Config UInt32 :=
  { nvmConfig with
    isSet := fun f => f = .fnNvmLoad
    app := fun _ _ w => (⟨2, [3, 0]⟩, w) }

def nvmStart : Sys UInt32 := (udsInit nvmConfig).final powerOn

def extendedSession : Sdu := ⟨[0x10, 0x03], by decide⟩

theorem extended_restored :
    ((udsInit nvmRestart).final powerOn).ctx.pair =
      (exec (step nvmConfig) nvmStart [.inputSdu (.bytes extendedSession)]).ctx.pair :=
  ((nvm_mirrors_iff nvmConfig rfl nvmStart [.inputSdu (.bytes extendedSession)]).2
    ⟨id, trivial⟩).2 none nvmRestart powerOn (by decide) ⟨rfl, fun _ _ => rfl⟩

/-- The S3 timer ends the extended session, but the memory keeps it, and the next start is in
the extended session. -/
theorem timeout_not_saved :
    let s := exec (step nvmConfig) nvmStart [.inputSdu (.bytes extendedSession), .elapse (· + 6000)]
    ¬ SavesChange nvmConfig s .process ∧ (step nvmConfig s .process).1.ctx.pair = (1, 0) ∧
      lastSaved (trace (step nvmConfig) nvmStart
        [.inputSdu (.bytes extendedSession), .elapse (· + 6000), .process]) = some (3, 0) ∧
      ((udsInit nvmRestart).final powerOn).ctx.pair = (3, 0) := by
  decide

end UdsLib.Core
