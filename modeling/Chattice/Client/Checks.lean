import Chattice.Asyncio.Rejection
import Chattice.Client.Messages

/-!
# The checks before a request

What the client does before a request is sent: it resolves credentials, looks at the attachments and
runs the preflights. None of this takes effect outside, and what is refused is refused by the client.

* `localRefusals` : effects, refusals, and the answers a refusal may come from instead;
* `validate_quiet`, `checkItem_quiet`, `checkAttachmentSend_quiet` : the checks are quiet.
-/

namespace Chattice.Client

open Asyncio Asyncio.Coro Capabilities

/-! ## The policy -/

/-- An exception class by which the client refuses a call. -/
def Exc.isRefusal : Exc → Bool
  | .chatApiError .. | .capabilityNotSupported .. => true
  | _ => false

def Exc.isGoogle : Exc → Bool
  | .googleApiCallError .. => true
  | _ => false

def Call.isGoogle : Call → Bool
  | .uploadMedia .. | .createMessage .. | .updateMessage .. => true
  | _ => false

def Call.isEffect : Call → Bool
  | .publish .. => true
  | k => k.isGoogle

/-- Google has answered, or the awaited call is itself what refused: a closed Bot, or a provider of
the application. -/
def isForeign : Asyncio.Event sig → Bool
  | .called k (.ret _) => Call.isGoogle k
  | .called _ (.raised e) => Exc.isRefusal e || Exc.isGoogle e
  | .called _ .cancelled => false
  | .acted e => nomatch e

/-- The client's own refusals. -/
def localRefusals : Policy sig where
  effect := Call.isEffect
  refusal := Exc.isRefusal
  foreign := isForeign

variable {bot : Bot} {identity : AuthMode} {args : CreateArgs}

/-! ## Quiet steps -/

section Quiet

theorem quiet_awaitCall {k : Call} (heffect : Call.isEffect k = false)
    (hgoogle : Call.isGoogle k = false) : localRefusals.Quiet (awaitCall k) :=
  Policy.quiet_call heffect fun _ => hgoogle

theorem resolveCredentials_quiet : localRefusals.Quiet (resolveCredentials bot) :=
  Policy.quiet_bind (quiet_awaitCall rfl rfl) fun _ => Policy.quiet_done

theorem resolveUserCredentials_quiet : localRefusals.Quiet (resolveUserCredentials bot) :=
  Policy.quiet_bind (quiet_awaitCall rfl rfl) fun _ => Policy.quiet_done

theorem authModeAsync_quiet : localRefusals.Quiet (authModeAsync bot) := by
  unfold authModeAsync
  split
  · exact Policy.quiet_done
  · exact Policy.quiet_bind resolveCredentials_quiet fun _ => Policy.quiet_done

theorem actualModeAsync_quiet : localRefusals.Quiet (actualModeAsync bot args) := by
  unfold actualModeAsync
  split
  · exact Policy.quiet_done
  · exact authModeAsync_quiet

theorem validate_quiet (file : InputFile) : localRefusals.Quiet file.validate := by
  unfold InputFile.validate
  split
  · exact Policy.quiet_done
  · refine Policy.quiet_tryElse (quiet_awaitCall rfl rfl) (fun e => ?_) fun found => ?_
    · split
      · exact ⟨_, rfl⟩
      · exact ⟨_, rfl⟩
    · split
      · exact Policy.quiet_done
      · split <;> exact Policy.quiet_done

theorem read_quiet (file : InputFile) : localRefusals.Quiet file.read := by
  unfold InputFile.read
  refine Policy.quiet_bind (quiet_awaitCall rfl rfl) fun content => ?_
  split <;> exact Policy.quiet_done

theorem checkItem_quiet (parent : String) (item : AttachmentItem) :
    localRefusals.Quiet (checkItem parent item) := by
  unfold checkItem
  split
  · refine Policy.quiet_bind Policy.quiet_ofExcept fun space => ?_
    split <;> exact Policy.quiet_done
  · exact validate_quiet _

theorem resolveFor_quiet : localRefusals.Quiet (resolveFor bot identity) := by
  unfold resolveFor
  split
  · exact resolveUserCredentials_quiet
  · exact resolveCredentials_quiet

theorem preflightOperation_quiet {operation : Operation} {variant : ExecutionVariant} :
    localRefusals.Quiet (preflightOperation bot operation identity variant) := by
  unfold preflightOperation
  exact Policy.quiet_bind resolveFor_quiet fun credentials => Policy.quiet_ofExcept

theorem preflightOnly_quiet {operation : Operation} :
    localRefusals.Quiet (preflightOnly bot operation identity) := by
  unfold preflightOnly execute
  refine Policy.quiet_bind Policy.quiet_ofExcept fun _ => ?_
  refine Policy.quiet_bind preflightOperation_quiet fun _ => ?_
  refine Policy.quiet_bind (quiet_awaitCall rfl rfl) fun _ => ?_
  refine Policy.quiet_tryElse Policy.quiet_done (fun e => ?_) fun _ => Policy.quiet_done
  split
  · exact ⟨_, rfl⟩
  · exact ⟨_, rfl⟩

theorem checkAttachmentSend_quiet :
    localRefusals.Quiet (checkAttachmentSend bot identity args) := by
  unfold checkAttachmentSend
  split
  · refine Policy.quiet_bind resolveUserCredentials_quiet fun _ => ?_
    refine Policy.quiet_bind Policy.quiet_ofExcept fun _ => ?_
    refine Policy.quiet_bind preflightOnly_quiet fun _ => ?_
    split
    · exact preflightOnly_quiet
    · exact Policy.quiet_done
  · exact Policy.quiet_done

end Quiet

end Chattice.Client
