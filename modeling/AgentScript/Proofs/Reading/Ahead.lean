import AgentScript.Proofs.Reading.Extension
import AgentScript.Proofs.Reading.Room
import AgentScript.Proofs.Scan.ReadBack

/-!
Contract: states whose tokens ahead are given ones.

Owns:
- states with given tokens ahead, without a fault and without a diagnostic so far;
- what such a state is like after one more token;
- that reading a script whose scan has no fault starts in such a state.

Unlike printed tokens, the tokens ahead are known here with their positions.
-/

set_option autoImplicit false

namespace AgentScript

/-- No token has a fault if no fault is recorded. -/
theorem fault?_eq_none_of_tokenize {source : String} (clean : (tokenize source).2.entries = []) :
    ∀ lexed ∈ (Cursor.ofSource source).scan.tokens, lexed.fault? = none :=
  List.filterMap_eq_nil_iff.1 (Sink.eq_nil_of_pushAll (congrArg Sink.mk clean))

/-- The tokens ahead are the given ones, none of them has a fault, and nothing is reported so far. -/
structure State.Ahead (state : State) (tokens : List Token) : Prop where
  scanned : state.Scanned
  tokens_eq : state.upcoming.map Lexed.token = tokens
  faultless : ∀ lexed ∈ state.upcoming, lexed.fault? = none
  clean : state.sink = Sink.empty

namespace State.Ahead

variable {state : State} {token : Token} {rest : List Token}

theorem deeper (ahead : state.Ahead rest) (nesting : Nat) :
    { state with nesting := nesting }.Ahead rest :=
  ⟨ahead.scanned.deeper nesting, ahead.tokens_eq, ahead.faultless, ahead.clean⟩

theorem kind_of_nil (ahead : state.Ahead []) : state.kind = .endOfInput :=
  ahead.scanned.kind_eq_endOfInput_iff.2 (List.map_eq_nil_iff.1 ahead.tokens_eq)

theorem current (ahead : state.Ahead (token :: rest)) : state.current = token := by
  obtain ⟨lexed, upcoming, eq, same, -⟩ := List.map_eq_cons_iff.1 ahead.tokens_eq
  rw [State.current, eq, List.headD_cons, same]

theorem kind (ahead : state.Ahead (token :: rest)) : state.kind = token.kind :=
  congrArg Token.kind ahead.current

theorem advance (ahead : state.Ahead (token :: rest)) : state.advance.Ahead rest := by
  obtain ⟨lexed, upcoming, eq, -, restEq⟩ := List.map_eq_cons_iff.1 ahead.tokens_eq
  have later : state.advance.upcoming = upcoming := by
    rw [State.Reaches.advance_upcoming, eq, List.tail_cons]
  have faultless : ∀ lexed ∈ upcoming, lexed.fault? = none := fun lexed member =>
    ahead.faultless lexed (by simp [eq, member])
  refine ⟨ahead.scanned.advance, by rwa [later], by rwa [later], ?_⟩
  have noFault : upcoming[1]?.bind Lexed.fault? = none := by
    cases second : upcoming[1]? with
    | none => rfl
    | some lexed => exact faultless lexed (List.mem_of_getElem? second)
  simp only [State.advance, eq, noFault]
  exact ahead.clean

theorem wellSpelled (ahead : state.Ahead (token :: rest)) : token.WellSpelled := by
  have spelled := ahead.scanned.wellSpelled
  obtain ⟨lexed, upcoming, eq, same, -⟩ := List.map_eq_cons_iff.1 ahead.tokens_eq
  rw [← same]
  exact spelled lexed (by simp [eq])

/-- The reading of a script starts with its tokens ahead, the end of input apart. -/
theorem ofSource {source : String} {ending : Token} (clean : (tokenize source).2.entries = [])
    (tokens : (tokenize source).1 = rest ++ [ending]) : (State.ofSource source).Ahead rest where
  scanned := State.scanned_ofSource source
  tokens_eq := by
    have all : (Cursor.ofSource source).scan.tokens.map Lexed.token ++
        [(Cursor.ofSource source).scan.ending.token] = rest ++ [ending] := by
      rw [← tokens]
      simp [tokenize, Scan.allTokens]
    exact (List.append_inj' all rfl).1
  faultless := fault?_eq_none_of_tokenize clean
  clean := by
    have none : ((Cursor.ofSource source).scan.tokens.take 2).filterMap Lexed.fault? = [] :=
      List.filterMap_eq_nil_iff.2 fun lexed member =>
        fault?_eq_none_of_tokenize clean lexed (List.mem_of_mem_take member)
    exact congrArg Sink.empty.pushAll none

end State.Ahead

end AgentScript
