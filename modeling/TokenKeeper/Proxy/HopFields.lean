import TokenKeeper.Http.Header

/-!
# Fields of one hop

Some fields of a message are meant for the next server only: those of a fixed list, and those that
the message itself lists under `connection`. A proxy leaves them out of what it passes on. Others
it adds to: the chain of clients under `x-forwarded-for`, to which each proxy appends the one that
it serves.
-/

namespace TokenKeeper.Http.Header

/-- The fields that are always meant for one hop. -/
def hopNames : List String :=
  [ "connection", "proxy-connection", "keep-alive", "proxy-authenticate", "proxy-authorization",
    "te", "trailer", "transfer-encoding", "upgrade" ]

/-- The names that a message lists under `connection`. -/
def connectionNames (h : Header) : List String :=
  (h.listed "connection").filterMap fun s => fieldName? (Utf8.ofText s)

/-- Without the fields of one hop. -/
def withoutHopFields (h : Header) : Header :=
  (h.eraseAll h.connectionNames).eraseAll hopNames

/-- The name of the field with the chain of clients. -/
def forwardedFor : String := "x-forwarded-for"

/-- The name of the field with the part of the path that a proxy has taken away. -/
def forwardedPrefix : String := "x-forwarded-prefix"

/-- Add a client to the chain, which becomes one field. What cannot be read in it is dropped. Should
the chain not be a legal value, it stays as it is. -/
def appendForwardedFor (h : Header) (client : String) : Header :=
  let value := Utf8.ofText (", ".intercalate (h.visibleTexts forwardedFor ++ [client]))
  if isValue value then h.insert forwardedFor value else h

end TokenKeeper.Http.Header
