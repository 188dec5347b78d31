import DicePool.Assembly.Draft
import DicePool.Log
import DicePool.Session
import DicePool.Command.Folder
import DicePool.Main
import DicePool.Proofs.Attaining
import DicePool.Proofs.Collecting
import DicePool.Proofs.Composing
import DicePool.Proofs.Refusing
import DicePool.Proofs.RoundTrip
import DicePool.Proofs.Stopping
import DicePool.Proofs.Looping
import DicePool.Proofs.Drawing
import DicePool.Proofs.Explaining
import DicePool.Proofs.Housing
import DicePool.Proofs.Recording
import DicePool.Proofs.Enduring
import DicePool.Proofs.Printing
import DicePool.Proofs.Making
import DicePool.Proofs.Rereading
import DicePool.Proofs.Casing
import DicePool.Proofs.Exploding
import DicePool.Proofs.Loading
import DicePool.Proofs.Reporting
import DicePool.Proofs.Partitioning
import DicePool.Proofs.Rerolling
import DicePool.Proofs.Blaming
import DicePool.Proofs.Exceeding
import DicePool.Proofs.Continuing
import DicePool.Proofs.Describing
import DicePool.Proofs.Naming
import DicePool.Proofs.Budgeting
import DicePool.Proofs.Logging
