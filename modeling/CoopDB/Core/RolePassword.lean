import CoopDB.Core.NetUrl

/-!
# The Statement That Sets a Password

What `SetRolePassword` of `internal/db/migrate.go` sends once it is connected. The
clause `PASSWORD '...'` takes no parameter, so the password is written into the text,
with its quotes doubled; the role is written with the verb `%q`.

## Main definitions

* `Boot.setRolePasswordSends`: `SetRolePassword` up to `conn.Exec`.
-/

namespace CoopDB

/-- `strings.ReplaceAll`, one quote by two. -/
def escapedPassword (newPassword : Bytes) : Bytes :=
  Replace.replaceAll [0x27] [0x27, 0x27] newPassword

/-- The text of the statement. -/
def alterRolePassword (role newPassword : Bytes) : Bytes :=
  utf8 "ALTER ROLE " ++ goQuoteBytes role ++ utf8 " WITH PASSWORD " ++
    (0x27 :: (escapedPassword newPassword ++ [0x27]))

/-- The text `SetRolePassword` sends, where it gets to sending one. -/
def Boot.setRolePasswordSends (x : BootEnv) (url password role newPassword : Bytes) :
    Except BootError Bytes := do
  let _ ← Boot.setRolePassword x url password role newPassword
  return alterRolePassword role newPassword

end CoopDB
