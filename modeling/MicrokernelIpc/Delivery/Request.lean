import MicrokernelIpc.Delivery.Basic

/-!
# Requests

A request goes from the client's command buffer to the server's, a handler turns it into
the reply, and the reply goes back the same way, so that the server is the sender of the
reply and its handles are looked up in the server's table.
-/

namespace MicrokernelIpc

/-- The threads that take part in a request. -/
structure RequestContext where
  caller : Key Thread
  server : Key Thread

/-- How a request ended: what the handler gave back, if it ran, and the outcome. -/
structure Exchange (α : Type) where
  answer : Option α
  outcome : Except DeliveryError Unit

/-- Have the request in the client's command buffer arrive at the server. -/
def openRequest (client server : Key Thread) : Attempt DeliveryError CommandBuffer := do
  deliverBetween client server
  let request ← (loadCommandBuffer server).adapt DeliveryError.memory
  note (.requestReceived (← threadAt client).threadId (← threadAt server).threadId
    request.header.command)
  return request

/-- Put the reply into the server's command buffer and have it arrive at the client. -/
def closeRequest (client server : Key Thread) (reply : CommandBuffer) :
    Attempt DeliveryError Unit := do
  (storeCommandBuffer server reply).adapt DeliveryError.memory
  deliverBetween server client

/-- Send the request in the client's command buffer to the server. The handler runs once,
on the request as it arrived, and only if it arrived. -/
def sendRequest {m : Type → Type} {α : Type} [Monad m] [MonadLiftT Action m]
    (client server : Key Thread)
    (handler : RequestContext → CommandBuffer → m (α × CommandBuffer)) : m (Exchange α) := do
  match ← (liftM (openRequest client server).run : m (Except DeliveryError CommandBuffer)) with
  | .error error => return ⟨none, .error error⟩
  | .ok request =>
    let (answer, reply) ← handler ⟨client, server⟩ request
    return ⟨some answer, ← liftM (closeRequest client server reply).run⟩

end MicrokernelIpc
