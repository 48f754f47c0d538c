import ElectionKeys.Arithmetic.BitLength
import ElectionKeys.Arithmetic.Jacobi
import ElectionKeys.Arithmetic.Lemmas
import ElectionKeys.Arithmetic.Operations
import ElectionKeys.Arithmetic.Positional
import ElectionKeys.Arithmetic.PowMod
import ElectionKeys.Arithmetic.Root
import ElectionKeys.Association
import ElectionKeys.Bytes.BigEndian
import ElectionKeys.Bytes.Lemmas
import ElectionKeys.Document.Basic
import ElectionKeys.Document.Field
import ElectionKeys.Election.Basic
import ElectionKeys.Election.Terms
import ElectionKeys.Failure.Error
import ElectionKeys.Failure.Kind
import ElectionKeys.Failure.Problem
import ElectionKeys.Group.Basic
import ElectionKeys.Group.Element
import ElectionKeys.Group.Published
import ElectionKeys.Group.SelfTest
import ElectionKeys.Guardian.Check
import ElectionKeys.Guardian.Generate
import ElectionKeys.Guardian.Index
import ElectionKeys.Guardian.Joint
import ElectionKeys.Guardian.Key
import ElectionKeys.Json.Printer
import ElectionKeys.Json.Reader
import ElectionKeys.Json.Shown
import ElectionKeys.Json.Value
import ElectionKeys.Primality.Lucas
import ElectionKeys.Primality.Strong
import ElectionKeys.Primality.Test
import ElectionKeys.Proofs.Guardian.Check
import ElectionKeys.Random.Sampling
import ElectionKeys.Random.Seed
import ElectionKeys.Random.Sponge
import ElectionKeys.Random.Tape
import ElectionKeys.Setup.Registry
import ElectionKeys.Setup.Run
import ElectionKeys.Setup.Trust
import ElectionKeys.Storage.Directory
import ElectionKeys.Storage.Vault
import ElectionKeys.Text.BigNumber
import ElectionKeys.Text.Digits
import ElectionKeys.Text.Lemmas
import ElectionKeys.Text.Printable
import ElectionKeys.Text.Shortest
import ElectionKeys.Proofs.Guardian.Combination
import ElectionKeys.Proofs.Election.Accepted
import ElectionKeys.Proofs.Guardian.JointSecret
import ElectionKeys.Proofs.Group.Cyclic
import ElectionKeys.Proofs.Group.FixedWidth
import ElectionKeys.Proofs.Json.Tokens
import ElectionKeys.Proofs.Json.RoundTrip
import ElectionKeys.Proofs.Json.Overlong
import ElectionKeys.Proofs.Json.Written
import ElectionKeys.Proofs.Text.BigNumber
import ElectionKeys.Proofs.Document.RoundTrip
import ElectionKeys.Proofs.Document.Overlong
import ElectionKeys.Proofs.Storage.Record
import ElectionKeys.Proofs.Setup.Trust
import ElectionKeys.Proofs.Random.Draws
import ElectionKeys.Proofs.Guardian.Generate
import ElectionKeys.Proofs.Setup.Run
import ElectionKeys.Proofs.Primality.Strong
import ElectionKeys.Proofs.Primality.Discriminant
import ElectionKeys.Proofs.Primality.Lucas
import ElectionKeys.Proofs.Document.Refusal
import ElectionKeys.Proofs.Election.Prime
import ElectionKeys.Proofs.Storage.Loading
import ElectionKeys.Proofs.Storage.History
import ElectionKeys.Proofs.Document.Schema
import ElectionKeys.Proofs.Document.Separation
import ElectionKeys.Proofs.Guardian.Order
import ElectionKeys.Proofs.Storage.KeyFiles
import ElectionKeys.Proofs.Guardian.Correspondence
import ElectionKeys.Proofs.Group.SelfTest
import ElectionKeys.Proofs.Primality.SignRoots
import ElectionKeys.Proofs.Primality.Liars
import ElectionKeys.Proofs.Primality.Rounds
import ElectionKeys.Proofs.Random.Uniform
import ElectionKeys.Proofs.Primality.Chance
import ElectionKeys.Proofs.Random.Rejection
import ElectionKeys.Proofs.Guardian.Generated
import ElectionKeys.Proofs.Guardian.Flaws
import ElectionKeys.Proofs.Guardian.Safety
import ElectionKeys.Proofs.Document.Verdict
import ElectionKeys.Proofs.Storage.Reports
