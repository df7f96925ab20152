import UdsLib.Core.World

/-! A message is opened, as a request or as a response, only by the call that brings it, and at most
once, whatever the services and callbacks of the application do. -/
namespace UdsLib.Core
open Bytes Machine Prog

variable {W : Type} {cfg : Config W} {R : W → List Event → W → Prop}

/-- The message whose treatment an event opens: a request that is dispatched, or a response that
goes to the callback of the client. -/
def Event.opened? : Event → Option (List UInt8)
  | .dispatch message => some message
  | .responseCb _ sid data => some (sid :: data.bytes)
  | _ => none

/-- The messages that are opened, in order. -/
def openedOf (es : List Event) : List (List UInt8) := es.filterMap Event.opened?

/-- The messages that the stack is given. -/
def messagesIn (ops : List (Op W)) : List Buf :=
  ops.filterMap fun
    | .inputSdu data => some data
    | _ => none

theorem openedOf_append (es fs : List Event) : openedOf (es ++ fs) = openedOf es ++ openedOf fs :=
  List.filterMap_append ..

theorem messagesIn_cons (op : Op W) (ops : List (Op W)) :
    messagesIn (op :: ops) = messagesIn [op] ++ messagesIn ops :=
  List.filterMap_append (l := [op]) ..

/-- Code of the application that keeps to the public interface keeps a relation that does not look
at the state of the application itself. -/
theorem WorldRule.runApp (h : WorldRule cfg R) (hput : ∀ w v, R w [] v) (p : AppProg W) :
    Keeps (Traced R) (runApp cfg p) := by
  have hR := h.composable
  induction p with
  | done res => exact hR.refl
  | look k ih => exact hR.bind (m := Prog.reads _) hR.refl fun s => ih _ _
  | put v k ih => exact hR.bind (m := Prog.modify _) (fun s => hput s.world v) fun _ => ih
  | fill off bytes k ih => exact hR.bind (m := Prog.modify _) hR.refl fun _ => ih
  | sendResponse len k ih => exact hR.bind (h.sendResponse len) fun _ => ih _
  | sendNrc sid nrc k ih => exact hR.bind (h.sendNrc sid nrc) fun _ => ih _
  | clientRequest sid data cb k ih => exact hR.bind (h.clientRequest sid data cb) fun _ => ih _

theorem unopened_rule (cfg : Config W) : WorldRule cfg fun _ es _ => openedOf es = [] where
  refl _ := rfl
  trans h hnext := by rw [openedOf_append, h, hnext, List.append_nil]
  inside w e he := by
    cases e with
    | dispatch | responseCb => exact absurd he Bool.false_ne_true
    | _ => rfl
  time _ := rfl
  call _ _ _ := rfl
  send _ _ _ _ _ := rfl

theorem unopened_code (cfg : Config W) : WorldCode cfg fun _ es _ => openedOf es = [] where
  toWorldRule := unopened_rule cfg
  user entry _ d := (unopened_rule cfg).runApp (fun _ _ => rfl) (entry.handler d)
  response cb sid data := (unopened_rule cfg).runApp (fun _ _ => rfl) (cfg.responseCb cb sid data)

theorem Opening.sublist {d : Sdu} {opening : List Event} (h : Opening d opening) :
    (openedOf opening).Sublist [d.bytes] := by
  cases h with
  | none => exact List.nil_sublist _
  | dispatch => exact List.Sublist.refl _
  | response hne cb =>
    have hall : d.byte 0 :: (d.slice 1 (d.bytes.length - 1)).bytes = d.bytes := by
      obtain ⟨bytes, hlen⟩ := d
      cases bytes with
      | nil => exact absurd rfl hne
      | cons b bs => simp [Sdu.byte, Sdu.slice]
    show [d.byte 0 :: (d.slice 1 (d.bytes.length - 1)).bytes].Sublist [d.bytes]
    rw [hall]

theorem step_opens (cfg : Config W) (s : Sys W) (op : Op W) :
    (openedOf (step cfg s op).2).Sublist ((messagesIn [op]).map Buf.content) := by
  by_cases hop : ∀ d, op ≠ .inputSdu (.bytes d)
  · have hnone := (unopened_code cfg).call_keeps op hop (fun _ _ _ => rfl) s
    rw [hnone]
    exact List.nil_sublist _
  · obtain ⟨d, hd⟩ := not_forall.mp hop
    obtain rfl := not_not.mp hd
    obtain ⟨pre, opening, post, -, hes, hpre, hopening, hpost⟩ := (unopened_code cfg).inputSdu d s
    rw [hes, openedOf_append, openedOf_append, hpre, hpost, List.nil_append, List.append_nil]
    exact hopening.sublist

/-- In every run, what is dispatched to a service or goes to the callback of the client are messages
that the stack was given, each at most once and in the order of their arrival. -/
theorem opened_once (cfg : Config W) (s : Sys W) (ops : List (Op W)) :
    (openedOf (trace (step cfg) s ops)).Sublist ((messagesIn ops).map Buf.content) := by
  induction ops generalizing s with
  | nil => exact List.Sublist.refl _
  | cons op ops ih =>
    rw [trace_cons, openedOf_append, messagesIn_cons, List.map_append]
    exact (step_opens cfg s op).append (ih _)

end UdsLib.Core
