import AiSoc.Auth.Service
import AiSoc.Library.JsText

namespace Console

open Permissions (Uuid Timestamp)
open Auth (User)
open JsText

section Browser

-- what the language and Web Crypto give: toLowerCase() and SHA-256
structure Web where
  toLowerCase : String → String
  digest : List UInt8 → List UInt8
  digest_length : ∀ data, (digest data).length = 32

variable (web : Web)

def normalizedEmail (email : String) : String :=
  web.toLowerCase (trim email)

def saltedText (email password : String) : String :=
  "ai-soc-salt:" ++ (normalizedEmail web email ++ ":" ++ password)

-- webCrypto is false where window.crypto.subtle is missing
def prehashPassword (webCrypto : Bool) (password email : String) : String :=
  if webCrypto then
    String.ofList (hexBytes (web.digest (encode (saltedText web email password))))
  else password

structure LoginForm where
  username : String
  password : String

-- the form of loginSession
def loginForm (webCrypto : Bool) (email password : String) : LoginForm :=
  ⟨email, prehashPassword web webCrypto password email⟩

end Browser

section Provisioning

-- EmailStr is the address that the validator of the schemas returns, none where it rejects it
structure Server extends Auth.Env where
  emailStr : String → Option String
  verify_iff : ∀ password other, verifyPassword password (hashPassword other) = true ↔
    password = other

variable (server : Server) (web : Web)

def validPassword (password : String) : Prop :=
  12 ≤ password.length ∧ password.length ≤ 128

instance (password : String) : Decidable (validPassword password) :=
  inferInstanceAs (Decidable (12 ≤ password.length ∧ password.length ≤ 128))

def validFullName (fullName : String) : Prop :=
  1 ≤ fullName.length ∧ fullName.length ≤ 255

instance (fullName : String) : Decidable (validFullName fullName) :=
  inferInstanceAs (Decidable (1 ≤ fullName.length ∧ fullName.length ≤ 255))

def newUser (id : Uuid) (now : Timestamp) (email fullName password roleName : String) : User :=
  ⟨id, email, PyStr.strip fullName, server.hashPassword password, roleName, true, none, now, now⟩

def getByEmail (users : List User) (email : String) : Option User :=
  users.find? fun user => user.email = email

variable (users : List User) (id : Uuid) (now : Timestamp)

-- the user that is created, none where there is one already
def createFirstAdmin (email fullName password : String) : Except String (Option User) :=
  let email := server.normalizeEmail email
  match getByEmail users email with
  | some existing =>
      if existing.roleName = "admin" ∧ existing.isActive = true then .ok none
      else .error "A non-active-admin user already uses this email"
  | none => .ok (some (newUser server id now email fullName password "admin"))

-- UserService.create after the schema UserCreate
def createUser (email fullName password roleName : String) : Except String (Option User) :=
  match server.emailStr email with
  | none => .error "validation"
  | some email =>
      if ¬ (validFullName fullName ∧ validPassword password) ∨
          roleName ∉ ["admin", "analyst", "viewer"] then .error "validation"
      else
        let email := server.normalizeEmail email
        match getByEmail users email with
        | some _ => .error "A user with this email already exists"
        | none => .ok (some (newUser server id now email fullName password roleName))

-- AuthService.register after the schema UserRegister
def registerUser (email fullName password : String) : Except String (Option User) :=
  match server.emailStr email with
  | none => .error "validation"
  | some email =>
      if ¬ (validFullName fullName ∧ validPassword password) then .error "validation"
      else
        let email := server.normalizeEmail email
        match getByEmail users email with
        | some _ => .error "An account with this email address already exists"
        | none => .ok (some (newUser server id now email fullName password "analyst"))

def registerSession (webCrypto : Bool) (fullName email password : String) :
    Except String (Option User) :=
  registerUser server users id now email fullName
    (prehashPassword web webCrypto password email)

inductive Provisioning where
  | createFirstAdmin (email fullName password : String)
  | createUser (email fullName password roleName : String)
  | registerSession (webCrypto : Bool) (fullName email password : String)

def provision : Provisioning → Except String (Option User)
  | .createFirstAdmin email fullName password =>
      createFirstAdmin server users id now email fullName password
  | .createUser email fullName password roleName =>
      createUser server users id now email fullName password roleName
  | .registerSession webCrypto fullName email password =>
      registerSession server web users id now webCrypto fullName email password

def Provisioning.password : Provisioning → String
  | .createFirstAdmin _ _ password => password
  | .createUser _ _ password _ => password
  | .registerSession _ _ _ password => password

-- AuthService.login of an account that is not throttled
def login (form : LoginForm) : Bool :=
  match getByEmail users (server.normalizeEmail form.username) with
  | none => false
  | some user => server.verifyPassword form.password user.passwordHash && user.isActive

end Provisioning

section Agreement

variable {server : Server} {web : Web} {users : List User} {id : Uuid} {now : Timestamp}
  {user : User}

def Collide (web : Web) (s t : String) : Prop :=
  s ≠ t ∧ web.digest (encode s) = web.digest (encode t)

def Fixed (web : Web) (spelling password : String) : Prop :=
  password = prehashPassword web true password spelling

def Agrees (web : Web) (spelling : String) : Provisioning → Prop
  | .registerSession true _ email password =>
      normalizedEmail web email = normalizedEmail web spelling ∨
        Collide web (saltedText web email password) (saltedText web spelling password)
  | .registerSession false _ _ password => Fixed web spelling password
  | .createFirstAdmin _ _ password => Fixed web spelling password
  | .createUser _ _ password _ => Fixed web spelling password

theorem saltedText_inj {email spelling password : String} :
    saltedText web email password = saltedText web spelling password ↔
      normalizedEmail web email = normalizedEmail web spelling := by
  constructor
  · intro h
    have hlists := congrArg String.toList h
    simp only [saltedText, String.toList_append, List.append_cancel_left_eq, List.append_assoc,
      List.append_cancel_right_eq] at hlists
    exact String.toList_inj.mp hlists
  · intro h
    rw [saltedText, saltedText, h]

theorem prehashPassword_eq_iff {email spelling password : String} :
    prehashPassword web true password spelling = prehashPassword web true password email ↔
      normalizedEmail web email = normalizedEmail web spelling ∨
        Collide web (saltedText web email password) (saltedText web spelling password) := by
  have hhex : prehashPassword web true password spelling = prehashPassword web true password email ↔
      web.digest (encode (saltedText web email password)) =
        web.digest (encode (saltedText web spelling password)) := by
    simp only [prehashPassword, if_true, String.ofList_inj]
    exact ⟨fun h => (hexBytes_inj h).symm, fun h => by rw [h]⟩
  rw [hhex, Collide, ← saltedText_inj]
  constructor
  · intro h
    by_cases heq : saltedText web email password = saltedText web spelling password
    · exact .inl heq
    · exact .inr ⟨heq, h⟩
  · rintro (heq | ⟨_, h⟩)
    · rw [heq]
    · exact h

-- what each way of creating an account hashes
def Provisioning.stored (web : Web) : Provisioning → String
  | .createFirstAdmin _ _ password => password
  | .createUser _ _ password _ => password
  | .registerSession webCrypto _ email password => prehashPassword web webCrypto password email

theorem created_of_free {email fullName password roleName error : String}
    (h : (match getByEmail users email with
      | some _ => .error error
      | none => .ok (some (newUser server id now email fullName password roleName))) =
        (.ok (some user) : Except String (Option User))) :
    getByEmail users email = none ∧
      user = newUser server id now email fullName password roleName := by
  split at h
  · cases h
  · rename_i hfree
    cases h
    exact ⟨hfree, rfl⟩

theorem provision_stored {request : Provisioning}
    (h : provision server web users id now request = .ok (some user)) :
    ∃ email fullName roleName, getByEmail users email = none ∧
      user = newUser server id now email fullName (request.stored web) roleName := by
  cases request with
  | createFirstAdmin email fullName password =>
      simp only [provision, createFirstAdmin] at h
      split at h
      · split at h
        · cases h
        · cases h
      · rename_i hfree
        cases h
        exact ⟨_, fullName, "admin", hfree, rfl⟩
  | createUser email fullName password roleName =>
      simp only [provision, createUser] at h
      split at h
      · cases h
      · split at h
        · cases h
        · obtain ⟨hfree, huser⟩ := created_of_free h
          exact ⟨_, fullName, roleName, hfree, huser⟩
  | registerSession webCrypto fullName email password =>
      simp only [provision, registerSession, registerUser] at h
      split at h
      · cases h
      · split at h
        · cases h
        · obtain ⟨hfree, huser⟩ := created_of_free h
          exact ⟨_, fullName, "analyst", hfree, huser⟩

theorem stored_iff_agrees (web : Web) (spelling : String) (request : Provisioning) :
    prehashPassword web true request.password spelling = request.stored web ↔
      Agrees web spelling request := by
  cases request with
  | createFirstAdmin email fullName password => exact eq_comm
  | createUser email fullName password roleName => exact eq_comm
  | registerSession webCrypto fullName email password =>
      cases webCrypto with
      | false => exact eq_comm
      | true => exact prehashPassword_eq_iff

theorem account_signs_in_iff {request : Provisioning} {spelling : String}
    (h : provision server web users id now request = .ok (some user))
    (hspelling : server.normalizeEmail spelling = user.email) :
    login server (users ++ [user]) (loginForm web true spelling request.password) = true ↔
      Agrees web spelling request := by
  obtain ⟨email, fullName, roleName, hfree, rfl⟩ := provision_stored h
  have hfound : getByEmail (users ++ [newUser server id now email fullName (request.stored web)
      roleName]) email =
        some (newUser server id now email fullName (request.stored web) roleName) := by
    rw [getByEmail, List.find?_append, ← getByEmail, hfree, Option.none_or]
    simp [newUser]
  have hform : server.normalizeEmail (loginForm web true spelling request.password).username =
      email := hspelling
  rw [← stored_iff_agrees, login, hform, hfound]
  simp only [newUser, Bool.and_true]
  exact server.verify_iff _ _

end Agreement

section Provisioned

def sharpSum : List UInt8 :=
  [109, 176, 152, 34, 144, 134, 201, 171, 150, 4, 24, 85, 37, 132, 177, 108, 244, 121, 126, 4,
    79, 93, 195, 156, 47, 66, 239, 233, 53, 92, 51, 78]

def plainSum : List UInt8 :=
  [94, 51, 22, 150, 161, 184, 120, 245, 84, 240, 88, 189, 214, 96, 11, 19, 57, 78, 138, 98, 178,
    166, 214, 203, 17, 203, 168, 221, 226, 44, 213, 207]

def sharpLead : UInt8 := 0xc3

def asciiLower (s : String) : String :=
  String.ofList (s.toList.map Char.toLower)

def demoWeb : Web where
  toLowerCase := asciiLower
  digest data := if data.contains sharpLead then sharpSum else plainSum
  digest_length data := by
    split
    · rfl
    · rfl

def demoServer : Server where
  casefold s :=
    String.ofList (s.toList.flatMap fun c => if c = 'ß' then ['s', 's'] else [c.toLower])
  verifyPassword password hash := password = hash
  hashPassword := id
  hashSecret := id
  refreshTokenLifetime := 1000
  emailStr := some
  verify_iff _ _ := decide_eq_true_iff

def firstAdmin : Provisioning :=
  .createFirstAdmin "strasse@example.com" "SOC Admin" "Bootstrap-Password-123"

def sharpAnalyst : Provisioning :=
  .registerSession true "An Analyst" "straße@example.com" "Bootstrap-Password-123"

def accountOf (request : Provisioning) : List User :=
  match provision demoServer demoWeb [] 0 0 request with
  | .ok (some user) => [user]
  | _ => []

theorem accounts_cannot_sign_in :
    (accountOf firstAdmin).length = 1 ∧
      login demoServer (accountOf firstAdmin)
        (loginForm demoWeb true "strasse@example.com" firstAdmin.password) = false ∧
      (accountOf sharpAnalyst).map (·.email) = [demoServer.normalizeEmail "STRASSE@example.com"] ∧
      login demoServer (accountOf sharpAnalyst)
        (loginForm demoWeb true "STRASSE@example.com" sharpAnalyst.password) = false := by
  decide +kernel

def sharpUser : User :=
  newUser demoServer 0 0 (demoServer.normalizeEmail "straße@example.com") "An Analyst"
    (sharpAnalyst.stored demoWeb) "analyst"

theorem sharpAnalyst_provisioned :
    provision demoServer demoWeb [] 0 0 sharpAnalyst = .ok (some sharpUser) := by
  have hvalid : ¬ ¬ (validFullName "An Analyst" ∧ validPassword (sharpAnalyst.stored demoWeb)) := by
    decide
  have hregister : provision demoServer demoWeb [] 0 0 sharpAnalyst =
      if ¬ (validFullName "An Analyst" ∧ validPassword (sharpAnalyst.stored demoWeb)) then
        .error "validation"
      else .ok (some sharpUser) := rfl
  rw [hregister, if_neg hvalid]

theorem analyst_signs_in :
    login demoServer [sharpUser] (loginForm demoWeb true " STRAßE@example.com"
      sharpAnalyst.password) = true := by
  have hspelling : demoServer.normalizeEmail " STRAßE@example.com" = sharpUser.email := by
    decide +kernel
  have hemail : normalizedEmail demoWeb "straße@example.com" =
      normalizedEmail demoWeb " STRAßE@example.com" := by
    decide +kernel
  exact (account_signs_in_iff sharpAnalyst_provisioned hspelling).mpr (.inl hemail)

end Provisioned

end Console
