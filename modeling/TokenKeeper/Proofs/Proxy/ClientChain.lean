import TokenKeeper.Proofs.Proxy.Fields

/-!
# The chain of clients

Every proxy on the way of a request adds the address of its client to the chain under
`x-forwarded-for`. The first one makes a single value of what can be read in the chain and of the
address, which is visible text itself. So the next one can read all of it, and the chain stays one
value that grows at its end: no address is lost, and nothing that is written is illegal
(`Header.clients_are_chained`).
-/

namespace TokenKeeper.Http

/-! ## The chain in bytes -/

/-- The values of a chain that are visible text, and clients behind them, with commas between. -/
def chainValue (values : List (List UInt8)) (clients : List ClientAddress) : List UInt8 :=
  (Utf8.ofText ", ").intercalate
    (values.filter (IsVisibleValue ·) ++ clients.map fun client => Utf8.ofText client.text)

theorem ofText_chainText_text (values : List (List UInt8)) (client : ClientAddress) :
    Utf8.ofText (chainText values client.text) = chainValue values [client] :=
  ofText_chainText values client.text

/-- A chain of one value, to which clients are added, grows at its end. -/
theorem chainValue_chainValue (values : List (List UInt8)) (client : ClientAddress)
    (clients : List ClientAddress) :
    chainValue [chainValue values [client]] clients = chainValue values (client :: clients) := by
  have hvisible : IsVisibleValue (chainValue values [client]) := by
    rw [← ofText_chainText_text]
    exact isVisibleValue_chainText values client.isVisible
  have hkept : [chainValue values [client]].filter (IsVisibleValue ·) =
      [chainValue values [client]] :=
    List.filter_cons_of_pos (decide_eq_true hvisible)
  rw [chainValue, hkept, List.singleton_append, chainValue, List.map_singleton,
    Pieces.intercalate_intercalate_cons, chainValue, List.map_cons]

namespace Header

/-- A header to whose chain clients were added, one after the other. -/
def withClients (h : Header) (clients : List ClientAddress) : Header :=
  clients.foldl (fun h client => h.appendForwardedFor client.text) h

/-- What one client does to a header. -/
theorem appendForwardedFor_text (h : Header) (client : ClientAddress) :
    h.appendForwardedFor client.text =
      h.insert forwardedFor (chainValue (h.getAll forwardedFor) [client]) := by
  rw [appendForwardedFor_eq_insert _ client.isVisible, ofText_chainText_text]

/-- What clients do to a header, if there are any. -/
theorem withClients_cons (h : Header) (client : ClientAddress) (clients : List ClientAddress) :
    h.withClients (client :: clients) =
      h.insert forwardedFor (chainValue (h.getAll forwardedFor) (client :: clients)) := by
  -- the others see a chain of one value, so the header changes from step to step
  induction clients generalizing h client with
  | nil => exact h.appendForwardedFor_text client
  | cons next rest ih =>
    calc h.withClients (client :: next :: rest)
      _ = (h.appendForwardedFor client.text).withClients (next :: rest) := by
          rw [withClients, List.foldl_cons, ← withClients]
      _ = (h.insert forwardedFor (chainValue (h.getAll forwardedFor) [client])).insert forwardedFor
            (chainValue [chainValue (h.getAll forwardedFor) [client]] (next :: rest)) := by
          rw [ih, appendForwardedFor_text, getAll_insert_self]
      _ = h.insert forwardedFor (chainValue (h.getAll forwardedFor) (client :: next :: rest)) := by
          rw [insert_insert, chainValue_chainValue]

/-- **The chain of clients.** Take any header, and one or more clients that are added to its chain
one after the other. Then the chain is one value, made of all the former values that are visible
text and of the addresses behind them, in their order. The other fields are what they were. And at
each step the new value is a legal one, so the step that keeps the old values never comes. -/
theorem clients_are_chained (h : Header) {clients : List ClientAddress} (hne : clients ≠ []) :
    (h.withClients clients).getAll forwardedFor =
        [(Utf8.ofText ", ").intercalate
          ((h.getAll forwardedFor).filter (IsVisibleValue ·) ++
            clients.map fun client => Utf8.ofText client.text)] ∧
      (h.withClients clients).erase forwardedFor = h.erase forwardedFor ∧
      ∀ before client after, clients = before ++ client :: after →
        isValue (Utf8.ofText (", ".intercalate
          ((h.withClients before).visibleTexts forwardedFor ++ [client.text]))) = true := by
  obtain ⟨client, rest, rfl⟩ := List.exists_cons_of_ne_nil hne
  refine ⟨?_, ?_, ?_⟩
  · rw [withClients_cons, getAll_insert_self, chainValue]
  · rw [withClients_cons, erase_insert_self]
  · intro before client after _
    exact (isVisibleValue_chainText _ client.isVisible).isValue

/-- Of several values one is empty and one is no visible text. -/
theorem clients_are_chained_behind_several_values :
    let h : Header :=
      [ .ofText "x-forwarded-for" "a,\tb", .ofText "x-kept" "1", .ofText "x-forwarded-for" "",
        .ofText "x-forwarded-for" "é", .ofText "x-forwarded-for" "unknown", .ofText "x-kept" "2" ]
    let clients : List ClientAddress :=
      [.v4 ⟨0x0A000001⟩, .v6 ⟨[0, 0, 0, 0, 0, 0, 0, 1]⟩, .v6 ⟨[0, 0, 0, 0, 0, 0xFFFF, 0x0A00, 2]⟩]
    clients ≠ [] ∧
    (h.withClients clients).getAll forwardedFor =
      [Utf8.ofText "a,\tb, , unknown, 10.0.0.1, ::1, ::ffff:10.0.0.2"] ∧
    (h.withClients clients).erase forwardedFor = [.ofText "x-kept" "1", .ofText "x-kept" "2"] := by
  intro h clients
  have hne : clients ≠ [] := by decide
  obtain ⟨hchain, hrest, -⟩ := h.clients_are_chained hne
  refine ⟨hne, ?_, ?_⟩
  · rw [hchain]
    decide +kernel
  · rw [hrest]
    decide +kernel

end Header

end TokenKeeper.Http
