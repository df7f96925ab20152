import UdsLib.Core.ClientResponse
import UdsLib.Core.Serving

/-! Requests that a response callback makes. The callback is run before `uds_input_sdu` retires the request
that was answered, so what is retired is the new one. -/
namespace UdsLib.Core
open Bytes Machine Prog Services

variable {W : Type} {cfg : Config W} {s : Sys W}

/-- The request is outstanding with its own SID and callback. -/
def IsAwaited (c : Ctx) (r : Request) : Prop := c.pendingSid ≠ 0 ∧ Outstanding r.sid r.callback c

/-- The message is handed to the callback of the request. -/
def IsDelivered (cfg : Config W) (s : Sys W) (r : Request) (d : Sdu) : Prop :=
  ∃ cb, r.callback = some cb ∧ .responseCb cb (d.byte 0) (d.slice 1 (d.bytes.length - 1)) ∈
    (step cfg s (.inputSdu (.bytes d))).2

/-- Without an outstanding request no message reaches a callback. -/
theorem unawaited_undelivered (h : s.ctx.pendingSid = 0) (r : Request) (d : Sdu) :
    ¬ IsDelivered cfg s r d := by
  rintro ⟨cb, -, hmem⟩
  by_cases hne : d.bytes = []
  · have hnone : ∀ d', Buf.bytes d = .bytes d' → d'.bytes = [] := by
      intro d' hd
      cases hd
      exact hne
    have hserves : Serves s (step cfg s (.inputSdu (.bytes d))).2 s := ignored_serves hnone
    exact absurd (hserves _ hmem) Bool.false_ne_true
  · have huntaken : ¬ (s.ctx.p2MsgPending = false ∧ takesAsAnswer s.ctx d) := fun hans => hans.2.1 h
    exact absurd (step_serves huntaken hne _ hmem) Bool.false_ne_true

/-- Requests made in a response callback are lost. For every response that the stack takes for the answer
to an outstanding request, and every request that its callback makes with success: it is not outstanding
behind the call, and no message that comes next is handed to its callback. -/
theorem chained_requests_lost (cfg : Config W) (s : Sys W) (d : Sdu) (hidle : s.ctx.p2MsgPending = false)
    (hans : takesAsAnswer s.ctx d) (hne : d.bytes ≠ []) :
    let t := (step cfg s (.inputSdu (.bytes d))).1
    ∀ r ∈ callbackRequests cfg d s, r.ret = udsOk →
      ¬ IsAwaited t.ctx r ∧ ∀ response, ¬ IsDelivered cfg t r response := by
  rintro t r - -
  have hsid : t.ctx.pendingSid = 0 := (taken_closes hidle hans hne).sid
  constructor
  · exact fun hawaited => hawaited.1 hsid
  · exact fun response => unawaited_undelivered hsid r response

/-- The client asks for another DID as soon as it has the VIN. -/
def chainConfig : Config Unit :=
  { plainConfig with
    responseCb := fun cb _ _ =>
      if cb = 0 then .clientRequest 0x22 (.bytes ⟨[0xF1, 0x91], by decide⟩) (some 1) fun _ => .done 0
      else .done 0 }

/-- The VIN was asked for. -/
def vinAsked : Sys Unit :=
  (step chainConfig (booted chainConfig) (.clientRequest 0x22 (.bytes ⟨[0xF1, 0x90], by decide⟩) (some 0))).1

theorem chained_request_lost :
    let t := (step chainConfig vinAsked (.inputSdu (.bytes vinResponse))).1
    ¬ IsAwaited t.ctx ⟨0x22, some 1, udsOk⟩ ∧
      ∀ response, ¬ IsDelivered chainConfig t ⟨0x22, some 1, udsOk⟩ response :=
  chained_requests_lost chainConfig vinAsked vinResponse (by decide) (by decide) (by decide)
    ⟨0x22, some 1, udsOk⟩ (by decide) rfl

/-- The second response is taken for a request and refused. -/
theorem chained_response_refused :
    let t := (step chainConfig vinAsked (.inputSdu (.bytes vinResponse))).1
    let second : Sdu := ⟨[0x62, 0xF1, 0x91], by decide⟩
    callbackRequests chainConfig vinResponse vinAsked = [⟨0x22, some 1, udsOk⟩] ∧
      t.ctx.pendingSid = 0 ∧ (¬ IsAwaited t.ctx ⟨0x22, some 1, udsOk⟩) ∧ IsResponse 0x22 second ∧
      sentOf (step chainConfig t (.inputSdu (.bytes second))).2 = [[0x7F, 0x62, 0x11]] := by
  intro t second
  have hsid : t.ctx.pendingSid = 0 := by decide
  exact ⟨by decide, hsid, fun h => h.1 hsid, by decide, by decide⟩

end UdsLib.Core
