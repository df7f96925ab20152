import UdsLib.Core.AddressSpace
import UdsLib.Core.OneReply

/-! Programs around programs. Between the arrival of a message and its handler the stack tells the
application no range, sends nothing and leaves the byte of the sequence alone. -/
namespace UdsLib.Core
open Bytes Machine Prog Services

variable {W : Type} {cfg : Config W} {d : Sdu} {s t u v : Sys W} {es fs : List Event} {α β γ : Type}

/-! ### Mute events -/

/-- Nothing is told, sent or withheld. -/
def Mute (es : List Event) : Prop := toldOf es = [] ∧ Unanswered es

theorem Mute.append (h : Mute es) (hnext : Mute fs) : Mute (es ++ fs) := by
  constructor
  · rw [toldOf_append, h.1, hnext.1]
    rfl
  · exact h.2.append hnext.2

theorem mute_of_forall {es : List Event}
    (h : ∀ e ∈ es, e.told? = none ∧ e.sent? = none ∧ e ≠ .withheld) : Mute es :=
  ⟨toldOf_none fun e he => (h e he).1, unanswered_of_forall fun e he => (h e he).2⟩

theorem around_mute (h : es.all Event.isAround = true) : Mute es := by
  apply mute_of_forall
  exact around_forall h (fun _ => ⟨rfl, rfl, nofun⟩) (fun _ => ⟨rfl, rfl, nofun⟩)
    fun _ => ⟨rfl, rfl, nofun⟩

theorem Gated.mute (h : Gated u es v) : Mute es :=
  mute_of_forall (h.forall fun _ _ _ => ⟨rfl, rfl, nofun⟩)

theorem dispatch_mute (data : List UInt8) (h : Mute es) : Mute (.dispatch data :: es) := by
  have hfirst : Mute [.dispatch data] :=
    mute_of_forall (List.forall_mem_singleton.mpr ⟨rfl, rfl, nofun⟩)
  exact hfirst.append h

/-! ### Wrapping -/

/-- A program that does what another does elsewhere, between stretches that are mute. -/
structure Wraps (m : M W α) (s : Sys W) (m' : M W β) (u : Sys W) : Prop where
  outputs : ∃ before after, Mute before ∧ Mute after ∧
    m.outputs s = before ++ (m'.outputs u ++ after)
  sequence : (m.final s).ctx.flashSequence = (m'.final u).ctx.flashSequence

section Wraps

variable {m : M W α} {m' : M W β} {m'' : M W γ}

/-- It tells what the other tells. -/
theorem Wraps.told (h : Wraps m s m' u) : toldOf (m.outputs s) = toldOf (m'.outputs u) := by
  obtain ⟨before, after, hbefore, hafter, hout⟩ := h.outputs
  rw [hout, toldOf_append, toldOf_append, hbefore.1, hafter.1, List.nil_append, List.append_nil]

/-- It sends what the other sends. -/
theorem Wraps.sent (h : Wraps m s m' u) : sentOf (m.outputs s) = sentOf (m'.outputs u) := by
  obtain ⟨before, after, hbefore, hafter, hout⟩ := h.outputs
  rw [hout, sentOf_append, sentOf_append, hbefore.2.1, hafter.2.1, List.nil_append, List.append_nil]

/-- It withholds an answer if the other does. -/
theorem Wraps.withheld (h : Wraps m s m' u) :
    .withheld ∈ m.outputs s ↔ .withheld ∈ m'.outputs u := by
  obtain ⟨before, after, hbefore, hafter, hout⟩ := h.outputs
  rw [hout, List.mem_append, List.mem_append, or_iff_right hbefore.2.2, or_iff_left hafter.2.2]

theorem Wraps.trans (hm : Wraps m s m' u) (hm' : Wraps m' u m'' v) : Wraps m s m'' v := by
  obtain ⟨⟨before, after, hbefore, hafter, hout⟩, hseq⟩ := hm
  obtain ⟨⟨before', after', hbefore', hafter', hout'⟩, hseq'⟩ := hm'
  constructor
  · refine ⟨before ++ before', after' ++ after, hbefore.append hbefore', hafter'.append hafter, ?_⟩
    rw [hout, hout']
    simp only [List.append_assoc]
  · exact hseq.trans hseq'

end Wraps

theorem Leads.wraps {m n : M W Unit} (hleads : Leads m s es n t) (hes : Mute es) : Wraps m s n t := by
  constructor
  · refine ⟨es, [], hes, around_mute rfl, ?_⟩
    rw [hleads.2, List.append_nil]
  · rw [hleads.1]

/-! ### The way to a handler -/

/-- `uds_input_sdu` wraps the treatment of its message. -/
theorem Treats.wraps {m : M W Unit} (htreats : Treats cfg s d m) :
    Wraps (inputSdu cfg (.bytes d)) s m (arrived cfg s) := by
  constructor
  · refine ⟨(mutexLock cfg).outputs s ++ (getTime cfg).outputs ((mutexLock cfg).final s),
      (mutexUnlock cfg).outputs (m.final (arrived cfg s)), ?_,
      around_mute (mutexUnlock_around cfg _).2, ?_⟩
    · exact (around_mute (mutexLock_around cfg s).2).append (around_mute rfl)
    · exact htreats.outputs.trans (List.append_assoc _ _ _).symm
  · have hfinal : (inputSdu cfg (.bytes d)).final s =
        (mutexUnlock cfg).final (m.final (arrived cfg s)) := htreats.final
    rw [hfinal, mutexUnlock_ctx]

theorem startRequest_wraps (cfg : Config W) (s : Sys W) (d : Sdu) :
    Wraps (startRequest cfg d) (arrived cfg s) (handleRequest cfg d) (entered cfg s) := by
  constructor
  · refine ⟨(getTime cfg).outputs (arrived cfg s), [], around_mute rfl, around_mute rfl, ?_⟩
    rw [startRequest_outputs, List.append_nil]
  · rw [startRequest_final]

theorem reject_wraps (sid nrc : UInt8) (s : Sys W) :
    Wraps (reject cfg sid nrc) s (sendNrc cfg sid nrc) s :=
  ⟨⟨[], [], around_mute rfl, around_mute rfl, rfl⟩, rfl⟩

/-- A handler that is done is all that `execute_handler` does. -/
theorem executeHandler_wraps {service : Service W}
    (hdone : (service.handler d).value u ≠ udsPending) :
    Wraps (executeHandler cfg service d) u (service.handler d) u := by
  obtain ⟨hstay, hrun⟩ := executeHandler_done cfg service d hdone
  constructor
  · refine ⟨[.handler service.sid], [], ?_, around_mute rfl, ?_⟩
    · exact mute_of_forall (List.forall_mem_singleton.mpr ⟨rfl, rfl, nofun⟩)
    · rw [hrun, List.append_nil]
      rfl
  · rw [hstay]

/-- A core handler is done when it returns, if the sends are. -/
theorem core_done (hsend : ∀ c data w, (cfg.fnTpSend c data w).1 ≤ 0) {service : Service W}
    (hcore : service ∈ coreServices cfg) (d : Sdu) (u : Sys W) :
    (service.handler d).value u ≠ udsPending := by
  have hvalue := (coreServices_path d service hcore).nonpos hsend u
  intro hpending
  rw [hpending] at hvalue
  exact absurd hvalue (by decide)

end UdsLib.Core
