import SageStore.Client.Models
import SageStore.Client.Qt

/-!
# `UsersView`

The users in an editable table. The list that comes from the server has no passwords, so the cells
of the column are empty when the table is filled. An edit of a cell sends the whole row: the
password as it stands in its cell, which is as it was typed.
-/

namespace SageStore

open Bytes

namespace UsersView

/-- A row of the table: the texts of its cells, and those that were stored with the two that are
edited as text. -/
structure TableRow where
  id : Bytes
  username : Bytes
  password : Bytes
  roleId : Bytes
  trackedUsername : Bytes
  trackedPassword : Bytes

/-- What comes of an edit: nothing, the text of an error, or what the view has its model do. -/
inductive Outcome where
  | nothing
  | errorOccurred (message : String)
  | does (a : Action)

def fillTable (users : List User) : List TableRow :=
  users.map fun user => ⟨user.id, user.username, [], user.roleId, user.username, []⟩

def persistRow (qt : Qt) (row : TableRow) : Outcome :=
  let user : User := ⟨row.id, qt.trimmed row.username, row.password, row.roleId⟩
  if user.username = [] then .errorOccurred "Username is required."
  else if user.id = [] then
    if user.password = [] then .errorOccurred "Password is required for new users."
    else .does (.createEntity .user user)
  else .does (.editEntity .user user)

/-- What the user does in the view, and the list of users that arrives. -/
inductive Input where
  | add (roles : List Role) (token : Bytes)
  | editUsername (row : ℕ) (text : Bytes)
  | editPassword (row : ℕ) (text : Bytes)
  | chooseRole (row : ℕ) (roleId : Bytes)
  | usersChanged (users : List User)

def onAddButtonClicked (roles : List Role) (token : Bytes) : Outcome :=
  match roles with
  | [] => .errorOccurred "Create at least one role before managing users."
  | role :: _ => .does (.createEntity .user ⟨[], utf8 "user-" ++ token, utf8 "changeme", role.id⟩)

/-- `onItemChanged` in the column of the name. -/
def onUsernameChanged (qt : Qt) (row : TableRow) (text : Bytes) : TableRow × Outcome :=
  let currentValue := qt.trimmed text
  if currentValue = [] then
    ({ row with username := row.trackedUsername }, .errorOccurred "Username is required.")
  else
    let row := { row with username := currentValue }
    if row.trackedUsername = currentValue then (row, .nothing)
    else
      let row := { row with trackedUsername := currentValue }
      (row, persistRow qt row)

/-- `onItemChanged` in the column of the password. -/
def onPasswordChanged (qt : Qt) (row : TableRow) (text : Bytes) : TableRow × Outcome :=
  let row := { row with password := text }
  if row.trackedPassword = text then (row, .nothing)
  else
    let row := { row with trackedPassword := text }
    (row, persistRow qt row)

/-- A choice in the column of the role. -/
def onRoleChosen (qt : Qt) (row : TableRow) (roleId : Bytes) : TableRow × Outcome :=
  if roleId = [] then (row, .nothing)
  else
    let row := { row with roleId := roleId }
    (row, persistRow qt row)

/-- A change to a row of the table. -/
def change (rows : List TableRow) (i : ℕ) (f : TableRow → TableRow × Outcome) :
    Outcome × List TableRow :=
  match rows[i]? with
  | none => (.nothing, rows)
  | some row => ((f row).2, rows.set i (f row).1)

/-- The runs of the view, from an empty table. -/
def machine (qt : Qt) : Machine (List TableRow) Input Outcome where
  init := []
  step rows
    | .add roles token => (onAddButtonClicked roles token, rows)
    | .editUsername i text => change rows i fun row => onUsernameChanged qt row text
    | .editPassword i text => change rows i fun row => onPasswordChanged qt row text
    | .chooseRole i roleId => change rows i fun row => onRoleChosen qt row roleId
    | .usersChanged users => (.nothing, fillTable users)

/-- The view does this in a run in which every password that is typed into a cell is `Typed`. -/
def Does (qt : Qt) (Typed : Bytes → Prop) (a : Action) : Prop :=
  ∃ is input, (∀ i text, .editPassword i text ∈ is ++ [input] → Typed text) ∧
    ((machine qt).step ((machine qt).run (machine qt).init is) input).1 = .does a

/-! ### What the view sends -/

section Sends

variable {qt : Qt} {P : Bytes → Prop} {row : TableRow} {rows : List TableRow} {a : Action}

/-- The action stores a user, with a password that `P` allows. -/
def Stores (P : Bytes → Prop) (a : Action) : Prop :=
  ∃ user : User, (a = .createEntity .user user ∨ a = .editEntity .user user) ∧ P user.password

/-- A row is sent with the password in its cell. -/
theorem persistRow_stores (hrow : P row.password) (h : persistRow qt row = .does a) :
    Stores P a := by
  unfold persistRow at h
  dsimp only at h
  split at h
  · cases h
  · split at h
    · split at h <;> cases h
      exact ⟨_, Or.inl rfl, hrow⟩
    · cases h
      exact ⟨_, Or.inr rfl, hrow⟩

/-- A change to a row that leaves an allowed password in it, and sends it if anything. -/
def Careful (P : Bytes → Prop) (f : TableRow → TableRow × Outcome) : Prop :=
  ∀ row, P row.password → P (f row).1.password ∧ ∀ a, (f row).2 = .does a → Stores P a

/-- A changed name stores the password of its row. -/
theorem onUsernameChanged_careful (text : Bytes) :
    Careful P fun row => onUsernameChanged qt row text := by
  intro row hrow
  unfold onUsernameChanged
  dsimp only
  split
  · exact ⟨hrow, fun a h => by cases h⟩
  · split
    · exact ⟨hrow, fun a h => by cases h⟩
    · exact ⟨hrow, fun a => persistRow_stores hrow⟩

/-- A typed password is stored as it is typed. -/
theorem onPasswordChanged_careful {text : Bytes} (htext : P text) :
    Careful P fun row => onPasswordChanged qt row text := by
  intro row hrow
  unfold onPasswordChanged
  dsimp only
  split
  · exact ⟨htext, fun a h => by cases h⟩
  · exact ⟨htext, fun a => persistRow_stores htext⟩

/-- A chosen role stores the password of its row. -/
theorem onRoleChosen_careful (roleId : Bytes) :
    Careful P fun row => onRoleChosen qt row roleId := by
  intro row hrow
  unfold onRoleChosen
  dsimp only
  split
  · exact ⟨hrow, fun a h => by cases h⟩
  · exact ⟨hrow, fun a => persistRow_stores hrow⟩

/-- A change of one row keeps what is known of the passwords of the rows, and stores only such. -/
theorem change_spec {f : TableRow → TableRow × Outcome} (hf : Careful P f) (i : ℕ)
    (hrows : ∀ row ∈ rows, P row.password) :
    (∀ row ∈ (change rows i f).2, P row.password) ∧
      ∀ a, (change rows i f).1 = .does a → Stores P a := by
  unfold change
  cases hi : rows[i]? with
  | none => exact ⟨hrows, fun a h => by cases h⟩
  | some row =>
    obtain ⟨hpassword, hdoes⟩ := hf row (hrows row (List.mem_of_getElem? hi))
    refine ⟨fun row' hrow' => ?_, hdoes⟩
    rcases List.mem_or_eq_of_mem_set hrow' with hrow' | rfl
    · exact hrows row' hrow'
    · exact hpassword

/-- One step: the cells stay allowed, and what is sent is. -/
theorem step_spec (hempty : P []) (hadd : P (utf8 "changeme")) {input : Input}
    (htyped : ∀ i text, input = .editPassword i text → P text)
    (hrows : ∀ row ∈ rows, P row.password) :
    (∀ row ∈ ((machine qt).step rows input).2, P row.password) ∧
      ∀ a, ((machine qt).step rows input).1 = .does a → Stores P a := by
  cases input with
  | add roles token =>
    refine ⟨hrows, fun a h => ?_⟩
    cases roles with
    | nil => cases h
    | cons role rest =>
      cases h
      exact ⟨_, Or.inl rfl, hadd⟩
  | editUsername i text => exact change_spec (onUsernameChanged_careful text) i hrows
  | editPassword i text =>
    exact change_spec (onPasswordChanged_careful (htyped i text rfl)) i hrows
  | chooseRole i roleId => exact change_spec (onRoleChosen_careful roleId) i hrows
  | usersChanged users =>
    refine ⟨fun row hrow => ?_, fun a h => by cases h⟩
    obtain ⟨user, -, rfl⟩ := List.mem_map.mp hrow
    exact hempty

/-- **What the view sends** has the password that it gives to new users, one that was typed, or
none. -/
theorem Does.stores {Typed : Bytes → Prop} (h : Does qt Typed a) :
    Stores (fun t => t = [] ∨ t = utf8 "changeme" ∨ Typed t) a := by
  obtain ⟨is, input, htyped, ha⟩ := h
  have hrun : ∀ js, js <+: is → ∀ row ∈ (machine qt).run (machine qt).init js,
      row.password = [] ∨ row.password = utf8 "changeme" ∨ Typed row.password := by
    intro js hbegins
    induction js using List.reverseRecOn with
    | nil => exact fun row hrow => absurd hrow List.not_mem_nil
    | append_singleton js i ih =>
      rw [Machine.run_append]
      refine (step_spec (P := fun t => t = [] ∨ t = utf8 "changeme" ∨ Typed t) (Or.inl rfl)
        (Or.inr (Or.inl rfl)) ?_ (ih ((List.prefix_append js [i]).trans hbegins))).1
      rintro j text rfl
      have hmem := hbegins.subset (List.mem_append_right js List.mem_cons_self)
      exact Or.inr (Or.inr (htyped j text (List.mem_append_left _ hmem)))
  refine (step_spec (P := fun t => t = [] ∨ t = utf8 "changeme" ∨ Typed t) (Or.inl rfl)
    (Or.inr (Or.inl rfl)) ?_ (hrun is List.prefix_rfl)).2 a ha
  rintro j text rfl
  exact Or.inr (Or.inr (htyped j text (List.mem_append_right is List.mem_cons_self)))

end Sends

end UsersView

end SageStore
